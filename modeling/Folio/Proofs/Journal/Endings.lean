import Folio.Proofs.Journal.Torn
import Mathlib.Data.List.DropRight

/-!
# What stands at the end of a segment

A record is written behind what a segment holds already, and is read back only if it
stands on a line of its own.  What follows the last line feed of a segment is the front
of that line: blanks do no harm there, and anything else spoils the first record that is
written.
-/

namespace Folio

open Json.Reader Text

/-! ## The last line -/

namespace Text

/-- What follows the last line feed. -/
def lastLine (chars : List Char) : List Char := chars.rtakeWhile (· != '\n')

theorem lineFeed_not_mem_lastLine (chars : List Char) : '\n' ∉ lastLine chars := by
  intro member
  have kept := List.mem_rtakeWhile_imp member
  contradiction

theorem exists_eq_append_lastLine (chars : List Char) :
    ∃ front, chars = front ++ lastLine chars ∧ ∀ c ∈ front.getLast?, c = '\n' := by
  refine ⟨chars.rdropWhile (· != '\n'), List.rdropWhile_append_rtakeWhile.symm, ?_⟩
  intro c last
  rcases List.mem_getLast?_eq_getLast last with ⟨some, rfl⟩
  have stops := List.rdropWhile_last_not (p := (· != '\n')) (l := chars) some
  simpa using stops

end Text

namespace JournalRecord

variable {chars rest tail : List Char}

/-! ## Blanks in front of a record -/

theorem read?_blank_append (blank : skipBlanks tail = []) (chars : List Char) :
    read? (tail ++ chars) = read? chars := by
  have skipped : skipBlanks (tail ++ chars) = skipBlanks chars := by
    rw [skipBlanks, List.dropWhile_append, ← skipBlanks, blank]
    rfl
  rw [read?, read?, expect?, expect?, skipped]

theorem read?_blank (blank : skipBlanks tail = []) : read? tail = none := by
  have skipped := read?_blank_append blank []
  rw [List.append_nil] at skipped
  exact skipped

/-! ## A record behind something else -/

/-- A record with an empty key and no document. -/
def bare : JournalRecord := ⟨"", .null⟩

theorem read?_bare : read? bare.line = some bare := rfl

/-- A scan that is inside of a string ends there again behind the line of the record, but
for its last brace. -/
theorem through_bare (depth : Nat) {mode : Mode} (quoted : mode ≠ .outside) :
    (⟨depth, mode⟩ : Scan).through bare.line.dropLast = some ⟨depth, .inside⟩ := by
  cases mode with
  | outside => exact absurd rfl quoted
  | inside => rfl
  | escaped => rfl

/-- A scan that is outside of strings has one more bracket open behind the line of the
record, but for its last brace. -/
theorem through_bare_outside (depth : Nat) :
    (⟨depth, .outside⟩ : Scan).through bare.line.dropLast = some ⟨depth + 1, .outside⟩ := by
  rcases exists_line_eq bare with ⟨inner, line⟩
  have read := read?_bare
  rw [line] at read
  have opened : bare.line.dropLast = ['{'] ++ inner := by
    rw [line, ← List.cons_append, List.dropLast_concat]
    rfl
  have opening : (⟨depth, .outside⟩ : Scan).through ['{'] = some ⟨depth + 1, .outside⟩ := rfl
  rw [opened, Scan.through_append, opening, Option.bind_some, scans_inner read]

theorem exists_brace_of_read? {entry : JournalRecord} (read : read? chars = some entry) :
    ∃ rest, skipBlanks chars = '{' :: rest ∧ read? ('{' :: rest) = some entry := by
  rcases Option.bind_eq_some_iff.mp read with ⟨rest, opened, onward⟩
  refine ⟨rest, expect?_eq_some_iff.mp opened, ?_⟩
  have opening : expect? '{' ('{' :: rest) = some rest := rfl
  rw [read?, opening]
  exact onward

/-- Behind anything but blanks the record is not read. -/
theorem read?_append_bare (solid : skipBlanks tail ≠ []) : read? (tail ++ bare.line) = none := by
  rw [Option.eq_none_iff_forall_ne_some]
  intro entry read
  rcases exists_brace_of_read? read with ⟨rest, start, stripped⟩
  rw [skipBlanks, List.dropWhile_append, ← skipBlanks, if_neg (by simpa using solid)] at start
  rcases List.exists_cons_of_ne_nil solid with ⟨c, onward, front⟩
  rw [front, List.cons_append, List.cons.injEq] at start
  rcases exists_closing_of_read? stripped with ⟨behind, ⟨inner, split, scanned⟩, blank⟩
  have line : bare.line = bare.line.dropLast ++ ['}'] := rfl
  rw [← start.2, line, ← List.append_assoc] at split
  have balanced := scanned 0
  rw [← eq_of_concat_brace split blank, Scan.through_append] at balanced
  rcases Option.bind_eq_some_iff.mp balanced with ⟨⟨depth, mode⟩, -, finish⟩
  by_cases outside : mode = .outside
  · rw [outside, through_bare_outside] at finish
    simp at finish
  · rw [through_bare depth outside] at finish
    simp at finish

end JournalRecord

namespace Journal

variable {records : List JournalRecord} {text : String}

/-! ## Records behind a text -/

/-- Whether nothing but blanks follows the last line feed of a text. -/
def Ended (text : String) : Prop := skipBlanks (lastLine text.toList) = []

instance (text : String) : Decidable (Ended text) :=
  inferInstanceAs (Decidable (_ = _))

theorem recordsIn_charsOf_of_kept (kept : ∀ entry ∈ records, reread? entry = some entry) :
    recordsIn (String.ofList (charsOf records)) = records := by
  rw [recordsIn_charsOf]
  calc records.filterMap reread? = records.filterMap some := List.filterMap_congr kept
    _ = records := List.filterMap_some

theorem exists_recordsIn_eq (text : String) :
    ∃ front, ∀ more, recordsIn (text ++ String.ofList more) =
      front ++ (lines (lastLine text.toList ++ more)).filterMap JournalRecord.read? := by
  rcases exists_eq_append_lastLine text.toList with ⟨front, split, ended⟩
  refine ⟨(lines front).filterMap JournalRecord.read?, fun more => ?_⟩
  rw [recordsIn, String.toList_append, String.toList_ofList]
  nth_rewrite 1 [split]
  rw [List.append_assoc, lines_append ended, List.filterMap_append]

theorem lines_lastLine_append (text : String) (entry : JournalRecord)
    (rest : List JournalRecord) :
    lines (lastLine text.toList ++ charsOf (entry :: rest)) =
      (lastLine text.toList ++ entry.line) :: lines (charsOf rest) := by
  have single : '\n' ∉ lastLine text.toList ++ entry.line := by
    rw [List.mem_append, not_or]
    exact ⟨lineFeed_not_mem_lastLine _, Json.lineFeed_not_mem_chars _⟩
  rw [charsOf_cons, ← List.append_assoc, lines_append_lineFeed single, dropReturn_append_line]

/-- Behind a text that is ended records are read as they were written. -/
theorem recordsIn_append_charsOf (ended : Ended text)
    (kept : ∀ entry ∈ records, reread? entry = some entry) :
    recordsIn (text ++ String.ofList (charsOf records)) = recordsIn text ++ records := by
  rcases exists_recordsIn_eq text with ⟨front, reads⟩
  have whole := reads []
  rw [String.ofList_nil, String.append_empty, List.append_nil,
    filterMap_read?_of_not_mem (lineFeed_not_mem_lastLine _), JournalRecord.read?_blank ended,
    Option.toList_none, List.append_nil] at whole
  rw [whole]
  cases records with
  | nil => rw [charsOf, List.flatMap_nil, String.ofList_nil, String.append_empty, whole,
      List.append_nil]
  | cons entry rest =>
      rw [List.forall_mem_cons] at kept
      have others := recordsIn_charsOf_of_kept kept.2
      rw [recordsIn, String.toList_ofList] at others
      have first : JournalRecord.read? entry.line = some entry := kept.1
      rw [reads, lines_lastLine_append, List.filterMap_cons, others,
        JournalRecord.read?_blank_append ended, first]

theorem length_recordsIn_append_bare (unended : ¬ Ended text) :
    (recordsIn (text ++ String.ofList (charsOf [.bare]))).length ≤ (recordsIn text).length := by
  rcases exists_recordsIn_eq text with ⟨front, reads⟩
  have whole := reads []
  rw [String.ofList_nil, String.append_empty, List.append_nil] at whole
  rw [reads, whole, lines_lastLine_append, List.filterMap_cons,
    JournalRecord.read?_append_bare unended]
  simp [charsOf, lines]

/-- The records of a text, the records that are written behind it and the records of later
texts are those there were and then those that are written, whatever they are, exactly when
the text is ended and the later texts have no records. -/
theorem appends_iff {text : String} {later : List JournalRecord} :
    (∀ records, (∀ entry ∈ records, reread? entry = some entry) →
      recordsIn (text ++ String.ofList (charsOf records)) ++ later =
        recordsIn text ++ later ++ records) ↔
      Ended text ∧ later = [] := by
  constructor
  · intro appends
    have ended : Ended text := by
      by_contra unended
      have kept : ∀ entry ∈ [JournalRecord.bare], reread? entry = some entry :=
        List.forall_mem_singleton.mpr JournalRecord.read?_bare
      have one := congrArg List.length (appends [.bare] kept)
      have lost := length_recordsIn_append_bare unended
      simp only [List.length_append, List.length_singleton] at one
      omega
    refine ⟨ended, ?_⟩
    cases later with
    | nil => rfl
    | cons first more =>
        -- Two different records would both have to be the first of the later ones.
        have isFirst (entry : JournalRecord) (kept : reread? entry = some entry) :
            entry = first := by
          have alone : ∀ other ∈ [entry], reread? other = some other :=
            List.forall_mem_singleton.mpr kept
          have moved := appends [entry] alone
          rw [recordsIn_append_charsOf ended alone, List.append_assoc, List.append_assoc,
            List.append_cancel_left_eq] at moved
          exact (List.cons.inj moved).1
        have same := (isFirst .bare JournalRecord.read?_bare).trans (isFirst ⟨"a", .null⟩ rfl).symm
        have keys := congrArg JournalRecord.key same
        contradiction
  · rintro ⟨ended, rfl⟩ records kept
    rw [recordsIn_append_charsOf ended kept, List.append_nil, List.append_nil]

end Journal

end Folio
