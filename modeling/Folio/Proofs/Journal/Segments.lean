import Folio.Journal.Basic
import Folio.Proofs.Attempt
import Folio.Proofs.Decimal.Digits
import Folio.Proofs.Journal.Line
import Folio.Proofs.Text.Lines
import Folio.Proofs.Text.Utf8

/-!
# Segments of a journal

A log lists the records that were written, each with the name of its segment.  The
content of a segment is the lines of its records, and reading all segments gives the
records segment by segment, in the order of the names of the segments and not in the
order in which they were written.
-/

namespace Folio

open Text

namespace Journal

/-- Records with the names of their segments, in the order in which they were written. -/
abbrev Log := List (String × JournalRecord)

/-- The records of a segment. -/
def under (log : Log) (name : String) : List JournalRecord :=
  (log.filter fun entry => entry.1 = name).map Prod.snd

theorem under_append (first second : Log) (name : String) :
    under (first ++ second) name = under first name ++ under second name := by
  simp [under]

theorem under_singleton_self (name : String) (entry : JournalRecord) :
    under [(name, entry)] name = [entry] := by
  simp [under]

theorem under_singleton_of_ne {name other : String} (different : other ≠ name)
    (entry : JournalRecord) : under [(other, entry)] name = [] := by
  simp [under, different]

theorem mem_under {log : Log} {name : String} {entry : JournalRecord} :
    entry ∈ under log name ↔ (name, entry) ∈ log := by
  simp [under]

/-! ## The content of a segment -/

/-- The characters of records in a segment. -/
def charsOf (records : List JournalRecord) : List Char :=
  records.flatMap fun entry => entry.line ++ ['\n']

/-- The content of a segment with records. -/
def contentOf (records : List JournalRecord) : ByteArray := (String.ofList (charsOf records)).toUTF8

@[simp]
theorem contentOf_nil : contentOf [] = ByteArray.empty := rfl

theorem contentOf_concat (records : List JournalRecord) (entry : JournalRecord) :
    contentOf (records ++ [entry]) = contentOf records ++ bytesOf entry := by
  have chars : charsOf (records ++ [entry]) = charsOf records ++ (entry.line ++ ['\n']) := by
    simp [charsOf]
  rw [contentOf, chars, String.ofList_append, String.toUTF8_eq_toByteArray,
    String.toByteArray_append]
  rfl

/-- The text of a segment is the one whose bytes it consists of. -/
theorem textOf_eq_ok_iff {segment : Segment} {text : String} :
    textOf segment = .ok text ↔ segment = .ok text.toUTF8 := by
  rw [textOf, bind_eq_ok_iff]
  constructor
  · rintro ⟨bytes, rfl, decoded⟩
    split at decoded
    · rename_i found holds
      cases decoded
      rw [fromUTF8?_eq_some_iff.mp holds]
      rfl
    · contradiction
  · rintro rfl
    refine ⟨_, rfl, ?_⟩
    rw [String.toUTF8, fromUTF8?_toByteArray]
    rfl

theorem textOf_contentOf (records : List JournalRecord) :
    textOf (.ok (contentOf records)) = .ok (String.ofList (charsOf records)) :=
  textOf_eq_ok_iff.mpr rfl

/-- The line of a record ends with a brace, so that nothing is taken away from it, whatever
stands in front of it. -/
theorem dropReturn_append_line (front : List Char) (entry : JournalRecord) :
    dropReturn (front ++ entry.line) = front ++ entry.line := by
  have last : (front ++ entry.line).getLast? = some '}' := by
    rw [JournalRecord.line, JournalRecord.toJson, Json.chars, ← List.append_assoc,
      List.getLast?_concat]
  rw [dropReturn, last]
  rfl

theorem dropReturn_line (entry : JournalRecord) : dropReturn entry.line = entry.line :=
  dropReturn_append_line [] entry

theorem charsOf_cons (entry : JournalRecord) (rest : List JournalRecord) :
    charsOf (entry :: rest) = entry.line ++ '\n' :: charsOf rest := by
  simp [charsOf]

theorem lines_charsOf (records : List JournalRecord) :
    lines (charsOf records) = records.map JournalRecord.line := by
  induction records with
  | nil => rfl
  | cons entry rest ih =>
      have single : '\n' ∉ entry.line := Json.lineFeed_not_mem_chars _
      rw [charsOf_cons, lines_append_lineFeed single, dropReturn_line, ih, List.map_cons]

/-- What a record is read back as. -/
def reread? (entry : JournalRecord) : Option JournalRecord := JournalRecord.read? entry.line

theorem recordsIn_charsOf (records : List JournalRecord) :
    recordsIn (String.ofList (charsOf records)) = records.filterMap reread? := by
  rw [recordsIn, String.toList_ofList, lines_charsOf, List.filterMap_map]
  rfl

theorem recordsOf_contentOf (segments : List (List JournalRecord)) :
    recordsOf (segments.map fun records => .ok (contentOf records)) =
      .ok (segments.flatMap fun records => records.filterMap reread?) := by
  induction segments with
  | nil => rfl
  | cons records rest ih =>
      rw [List.map_cons, recordsOf, textOf_contentOf, ih, List.flatMap_cons, ← recordsIn_charsOf]
      rfl

/-! ## Names of segments -/

theorem toList_segmentName (now : Nat) :
    (segmentName now).toList = ['w', 'a', 'l', '-'] ++ Nat.toDigits 10 now ++ '.' :: extension := by
  rw [segmentName, String.toList_ofList]

theorem segmentName_injective : Function.Injective segmentName := by
  intro first second same
  have chars := congrArg String.toList same
  rw [toList_segmentName, toList_segmentName, List.append_assoc, List.append_assoc] at chars
  have digits := List.append_cancel_right (List.append_cancel_left chars)
  exact Decimal.toDigits_injective digits

/-- Whether a name ends with a dot and the extension and has something in front of them. -/
def IsLog (name : String) : Prop :=
  ∃ stem, stem ≠ [] ∧ name.toList = stem ++ ['.', 'l', 'o', 'g']

/-- The segments are the files with such names. -/
theorem isSegment_iff {name : String} : isSegment name = true ↔ IsLog name := by
  rw [isSegment, decide_eq_true_eq]
  constructor
  · intro logged
    unfold extensionOf? at logged
    dsimp only at logged
    split at logged
    · rename_i dot c stem behind
      rw [Option.some.injEq] at logged
      have cut := List.takeWhile_append_dropWhile (p := (· != '.')) (l := name.toList.reverse)
      have stop := List.head?_dropWhile_not (· != '.') name.toList.reverse
      generalize List.takeWhile (· != '.') name.toList.reverse = front at logged behind cut
      rw [← cut, List.drop_left] at behind
      rw [behind] at cut stop
      have isDot : dot = '.' := by simpa using stop
      refine ⟨(c :: stem).reverse, by simp, ?_⟩
      rw [← isDot, List.reverse_eq_iff.mp cut.symm]
      simp [logged, extension]
    · contradiction
  · rintro ⟨stem, named, split⟩
    have reversed : name.toList.reverse = ['g', 'o', 'l'] ++ '.' :: stem.reverse := by
      rw [split]
      simp
    have behind : name.toList.reverse.takeWhile (· != '.') = ['g', 'o', 'l'] := by
      rw [reversed]
      rfl
    rcases List.exists_cons_of_ne_nil (List.reverse_ne_nil_iff.mpr named) with ⟨c, rest, stem⟩
    rw [extensionOf?, behind, reversed, stem]
    rfl

/-- The name of a segment is longer than the extension, and so it is no step that stays where
it is or leads up. -/
theorem IsLog.ne {name short : String} (isLog : IsLog name) (few : short.toList.length ≤ 4) :
    name ≠ short := by
  rcases isLog with ⟨stem, nonempty, chars⟩
  have some := List.length_pos_iff.mpr nonempty
  rintro rfl
  rw [chars, List.length_append] at few
  simp only [List.length_cons, List.length_nil] at few
  omega

theorem IsLog.moves {name : String} (isLog : IsLog name) : Volume.staysPut name = false := by
  have named : name ≠ "" := isLog.ne (by decide)
  have moves : name ≠ "." := isLog.ne (by decide)
  simp [Volume.staysPut, named, moves]

theorem IsLog.down {name : String} (isLog : IsLog name) : name ≠ Volume.stepUp :=
  isLog.ne (by decide)

instance : DecidablePred IsLog := fun _ => decidable_of_iff _ isSegment_iff

theorem filter_isSegment (names : List String) :
    names.filter isSegment = names.filter (IsLog ·) :=
  List.filter_congr fun _ _ => Bool.eq_iff_iff.mpr (isSegment_iff.trans decide_eq_true_iff.symm)

theorem isLog_segmentName (now : Nat) : IsLog (segmentName now) :=
  ⟨_, List.append_ne_nil_of_left_ne_nil (List.cons_ne_nil _ _) _, toList_segmentName now⟩

theorem isSegment_segmentName (now : Nat) : isSegment (segmentName now) = true :=
  isSegment_iff.mpr (isLog_segmentName now)

/-! ## The order of names -/

theorem placeName_perm (name : String) (names : List String) :
    (placeName name names).Perm (name :: names) := by
  induction names with
  | nil => rfl
  | cons other rest ih =>
      rw [placeName]
      split
      · rfl
      · exact (ih.cons other).trans (List.Perm.swap name other rest)

/-- Names in ascending order are the names that were given. -/
theorem ascending_perm (names : List String) : (ascending names).Perm names := by
  induction names with
  | nil => rfl
  | cons name rest ih => exact (placeName_perm name _).trans (ih.cons name)

theorem sorted_placeName {name : String} {names : List String}
    (sorted : names.Pairwise (· ≤ ·)) : (placeName name names).Pairwise (· ≤ ·) := by
  induction names with
  | nil => simp [placeName]
  | cons other rest ih =>
      have ⟨above, sortedRest⟩ := List.pairwise_cons.mp sorted
      rw [placeName]
      split
      · rename_i below
        have least : name ≤ other := String.not_lt.mp (String.lt_asymm below)
        refine List.pairwise_cons.mpr ⟨?_, sorted⟩
        rw [List.forall_mem_cons]
        exact ⟨least, fun later member => String.le_trans least (above later member)⟩
      · rename_i notBelow
        refine List.pairwise_cons.mpr ⟨fun later member => ?_, ih sortedRest⟩
        rcases List.mem_cons.mp ((placeName_perm name rest).mem_iff.mp member) with rfl | member
        · exact String.not_lt.mp notBelow
        · exact above later member

theorem sorted_ascending (names : List String) : (ascending names).Pairwise (· ≤ ·) := by
  induction names with
  | nil => exact List.Pairwise.nil
  | cons name rest ih => exact sorted_placeName ih

theorem eq_of_perm_of_sorted {names others : List String} (same : names.Perm others)
    (sorted : names.Pairwise (· ≤ ·)) (sortedToo : others.Pairwise (· ≤ ·)) : names = others :=
  same.eq_of_pairwise (fun _ _ _ _ => String.le_antisymm) sorted sortedToo

theorem pairwise_lt_of_nodup {names : List String} (sorted : names.Pairwise (· ≤ ·))
    (distinct : names.Nodup) : names.Pairwise (· < ·) := by
  apply (sorted.and distinct).imp
  rintro first second ⟨least, apart⟩
  exact Decidable.byContradiction fun notBelow =>
    apart (String.le_antisymm least (String.not_lt.mp notBelow))

theorem pairwise_ascending {names : List String} (distinct : names.Nodup) :
    (ascending names).Pairwise (· < ·) :=
  pairwise_lt_of_nodup (sorted_ascending names) ((ascending_perm names).nodup_iff.mpr distinct)

/-- Behind a name stand exactly the later ones. -/
theorem ascending_split {names : List String} (distinct : names.Nodup) {name : String}
    (member : name ∈ names) :
    ∃ front rest, ascending names = front ++ name :: rest ∧
      ∀ other, other ∈ rest ↔ other ∈ names ∧ name < other := by
  obtain ⟨front, rest, split⟩ := List.append_of_mem ((ascending_perm names).mem_iff.mpr member)
  have sorted := pairwise_ascending distinct
  rw [split, List.pairwise_append, List.pairwise_cons] at sorted
  rcases sorted with ⟨_, ⟨later, _⟩, earlier⟩
  refine ⟨front, rest, split, fun other => ?_⟩
  have given : other ∈ names ↔ other ∈ front ∨ other = name ∨ other ∈ rest := by
    rw [← (ascending_perm names).mem_iff, split, List.mem_append, List.mem_cons]
  rw [given]
  constructor
  · intro behind
    exact ⟨.inr (.inr behind), later other behind⟩
  · rintro ⟨before | rfl | behind, above⟩
    · exact absurd above (String.lt_asymm (earlier other before name List.mem_cons_self))
    · exact absurd above (String.lt_irrefl other)
    · exact behind

theorem segmentNames_eq {names : List String} (all : ∀ name ∈ names, isSegment name = true) :
    segmentNames names = ascending names :=
  List.filter_eq_self.mpr fun name member => all name ((ascending_perm names).mem_iff.mp member)

end Journal

end Folio
