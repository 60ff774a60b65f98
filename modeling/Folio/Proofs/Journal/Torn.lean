import Folio.Proofs.Journal.Shelf
import Folio.Proofs.Json.Balance
import Folio.Text.Width
import Mathlib.Data.List.Infix

/-!
# A journal whose end is torn off

Of a segment only the first bytes may be left.  If they end between two characters, the
records whose text is complete are read, and no other: a record ends with the bracket that
closes its first one, so no front of its text is a record.  If they end inside a character
they are no text, and nothing is read at all.
-/

namespace Folio

open Json.Reader Text

namespace JournalRecord

/-! ## What is read as a record -/

variable {chars rest : List Char}

theorem readKey_balances : Balances readKey := by
  intro chars key rest read
  unfold readKey at read
  split at read
  · rename_i start
    exact (took_blanks start).trans (string_took read)
  · contradiction

theorem readPart_balances (name : String) : Balances (readPart name) := by
  intro chars part rest read
  rw [readPart] at read
  split at read
  · rcases bind_eq_ok_iff.mp read with ⟨⟨key, onward⟩, inner, same⟩
    cases same
    exact readKey_balances _ _ _ inner
  · split at read
    · rcases bind_eq_ok_iff.mp read with ⟨⟨document, onward⟩, inner, same⟩
      cases same
      exact value_balances _ _ _ _ _ inner
    · rcases bind_eq_ok_iff.mp read with ⟨⟨_, onward⟩, inner, same⟩
      cases same
      exact skim_balances _ _ _ inner

theorem expect?_eq_some_iff {expected : Char} :
    expect? expected chars = some rest ↔ skipBlanks chars = expected :: rest := by
  unfold expect?
  split
  · rename_i nothing
    simp [nothing]
  · rename_i c behind start
    simp [start]

theorem expect?_took {expected : Char} (found : expect? expected chars = some rest) :
    Took .outside .outside chars (expected :: rest) :=
  took_blanks (expect?_eq_some_iff.mp found)

theorem readPair?_took {entry : JournalRecord} (read : readPair? chars = some (entry, rest)) :
    Took .outside .outside chars (']' :: rest) := by
  rcases Option.bind_eq_some_iff.mp read with ⟨⟨key, first⟩, keyRead, read⟩
  rcases Option.bind_eq_some_iff.mp read with ⟨second, comma, read⟩
  rcases Option.bind_eq_some_iff.mp read with ⟨⟨document, third⟩, documentRead, read⟩
  rcases Option.bind_eq_some_iff.mp read with ⟨last, closing, same⟩
  cases same
  have keyTaken := readKey_balances _ _ _ (toOption_eq_some_iff.mp keyRead)
  have commaTaken := (expect?_took comma).trans (took_unmarked (by decide) second)
  have documentTaken := value_balances _ _ _ _ _ (toOption_eq_some_iff.mp documentRead)
  exact keyTaken.trans (commaTaken.trans (documentTaken.trans (expect?_took closing)))

theorem readMembers?_took {entry : JournalRecord} (read : readMembers? chars = some (entry, rest)) :
    Took .outside .outside chars ('}' :: rest) := by
  rcases Option.bind_eq_some_iff.mp read with ⟨⟨parts, onward⟩, inner, read⟩
  rcases Option.bind_eq_some_iff.mp read with ⟨found, _, same⟩
  cases same
  exact members_took readPart_balances (toOption_eq_some_iff.mp inner)

theorem readContent?_took {entry : JournalRecord} (read : readContent? chars = some (entry, rest)) :
    Took .outside .outside chars rest := by
  unfold readContent? at read
  split at read
  · rename_i start
    exact (took_blanks start).trans ((readPair?_took read).between (.inl rfl) (.inl rfl))
  · rename_i start
    exact (took_blanks start).trans ((readMembers?_took read).between (.inr rfl) (.inr rfl))
  · contradiction

/-- Behind its opening brace a record is read up to a closing one, and nothing but blanks
follows. -/
theorem exists_closing_of_read? {entry : JournalRecord} (read : read? ('{' :: chars) = some entry) :
    ∃ behind, Took .outside .outside chars ('}' :: behind) ∧ skipBlanks behind = [] := by
  have opening : expect? '{' ('{' :: chars) = some chars := rfl
  rw [read?, opening, Option.bind_eq_bind, Option.bind_some] at read
  rcases Option.bind_eq_some_iff.mp read with ⟨⟨kind, second⟩, kindRead, read⟩
  dsimp only at read
  split at read
  · rcases Option.bind_eq_some_iff.mp read with ⟨third, colon, read⟩
    rcases Option.bind_eq_some_iff.mp read with ⟨⟨found, fourth⟩, content, read⟩
    rcases Option.bind_eq_some_iff.mp read with ⟨last, closing, read⟩
    split at read
    · rename_i nothing
      have kindTaken := readKey_balances _ _ _ (toOption_eq_some_iff.mp kindRead)
      have colonTaken := (expect?_took colon).trans (took_unmarked (by decide) third)
      exact ⟨last, kindTaken.trans (colonTaken.trans
        ((readContent?_took content).trans (expect?_took closing))), nothing⟩
    · contradiction
  · contradiction

theorem exists_line_eq (entry : JournalRecord) : ∃ inner, entry.line = '{' :: (inner ++ ['}']) :=
  ⟨_, rfl⟩

/-- Behind the brace that ends a text there are no blanks. -/
theorem eq_of_concat_brace {front behind : List Char}
    (split : chars ++ ['}'] = front ++ '}' :: behind) (blank : skipBlanks behind = []) :
    chars = front := by
  have nothing : behind = [] := by
    rw [List.eq_nil_iff_forall_not_mem]
    intro c member
    -- The last character of the text is no blank.
    have last : '}' ∈ behind := by
      have ends := congrArg List.getLast? split
      rw [List.getLast?_concat, List.getLast?_append, List.getLast?_cons] at ends
      cases final : behind.getLast? with
      | none => simp [List.getLast?_eq_none_iff.mp final] at member
      | some d =>
          have same : '}' = d := by simpa [final] using ends
          exact same ▸ List.mem_of_getLast? final
    have isBlank := List.dropWhile_eq_nil_iff.mp blank _ last
    contradiction
  rwa [nothing, List.append_left_inj] at split

/-- What is inside of the braces of a line that is read as a record closes no bracket that
it has not opened. -/
theorem scans_inner {inner : List Char} {entry : JournalRecord}
    (read : read? ('{' :: (inner ++ ['}'])) = some entry) : Scans .outside .outside inner := by
  rcases exists_closing_of_read? read with ⟨behind, ⟨front, split, scanned⟩, blank⟩
  rw [eq_of_concat_brace split blank]
  exact scanned

/-- No front of the line of a record is read as a record. -/
theorem read?_eq_none_of_front {entry : JournalRecord} (kept : (read? entry.line).isSome)
    {front : List Char} (isFront : front <+: entry.line) (torn : front ≠ entry.line) :
    read? front = none := by
  rcases exists_line_eq entry with ⟨inner, line⟩
  rcases Option.isSome_iff_exists.mp kept with ⟨whole, readsWhole⟩
  rw [line] at readsWhole isFront torn
  rw [Option.eq_none_iff_forall_ne_some]
  intro found readsFront
  cases front with
  | nil => contradiction
  | cons c rest =>
      rcases List.cons_prefix_cons.mp isFront with ⟨rfl, inside⟩
      rcases exists_closing_of_read? readsFront with ⟨behind, ⟨first, split, scanned⟩, _⟩
      rcases List.prefix_concat_iff.mp inside with all | ⟨more, proper⟩
      · exact torn (by rw [all])
      · rw [split, List.append_assoc, List.cons_append] at proper
        exact scanned.not_append_closing (proper ▸ scans_inner readsWhole)

end JournalRecord

namespace Journal

/-! ## The records of a front -/

/-- Records, each with the byte of a segment at which its text ends. -/
def textEnds (start : Nat) : List JournalRecord → List (JournalRecord × Nat)
  | [] => []
  | entry :: rest =>
      (entry, start + width entry.line) :: textEnds (start + width entry.line + 1) rest

/-- The records whose text lies within the first bytes of a segment. -/
def within (size : Nat) (placed : List (JournalRecord × Nat)) : List JournalRecord :=
  (placed.filter fun entry => entry.2 ≤ size).map Prod.fst

variable {records : List JournalRecord}

theorem start_le_of_mem_textEnds {start : Nat} {placed : JournalRecord × Nat}
    (member : placed ∈ textEnds start records) : start ≤ placed.2 := by
  induction records generalizing start with
  | nil => simp [textEnds] at member
  | cons entry rest ih =>
      rcases List.mem_cons.mp member with rfl | later
      · exact Nat.le_add_right start _
      · have behind := ih later
        omega

theorem width_lt_of_front {front chars : List Char} (isFront : front <+: chars)
    (torn : front ≠ chars) : width front < width chars := by
  rcases isFront with ⟨more, rfl⟩
  cases more with
  | nil => simp at torn
  | cons c more =>
      have some : 0 < c.utf8Size := Char.utf8Size_pos c
      rw [width_append, width_cons]
      omega

theorem within_textEnds_eq_nil {size start : Nat} (later : size < start) :
    within size (textEnds start records) = [] := by
  rw [within, List.map_eq_nil_iff, List.filter_eq_nil_iff]
  intro placed member
  have behind := start_le_of_mem_textEnds member
  simp only [decide_eq_true_eq]
  omega

theorem within_cons (size : Nat) (entry : JournalRecord) (finish : Nat)
    (rest : List (JournalRecord × Nat)) :
    within size ((entry, finish) :: rest) =
      if finish ≤ size then entry :: within size rest else within size rest := by
  simp only [within, List.filter_cons, decide_eq_true_eq]
  split <;> rfl

theorem front_cases {entry : JournalRecord} {front : List Char}
    (isFront : front <+: charsOf (entry :: records)) :
    front <+: entry.line ∨ ∃ inner, front = entry.line ++ '\n' :: inner ∧
      inner <+: charsOf records := by
  rcases isFront with ⟨more, split⟩
  rw [charsOf_cons] at split
  rcases List.append_eq_append_iff.mp split with ⟨others, line, _⟩ | ⟨others, line, behind⟩
  · exact .inl ⟨others, line.symm⟩
  · cases others with
    | nil => exact .inl ⟨[], by rw [line, List.append_nil, List.append_nil]⟩
    | cons c inner =>
        rw [List.cons_append, List.cons.injEq] at behind
        exact .inr ⟨inner, by rw [line, behind.1], more, behind.2.symm⟩

/-- A single line holds one record at most. -/
theorem filterMap_read?_of_not_mem {line : List Char} (single : '\n' ∉ line) :
    (lines line).filterMap JournalRecord.read? = (JournalRecord.read? line).toList := by
  rw [lines_of_not_mem single]
  split
  · rename_i nothing
    rw [nothing]
    rfl
  · cases found : JournalRecord.read? line <;> simp [found]

section Line

variable {entry : JournalRecord}

theorem recordsIn_line (kept : reread? entry = some entry) :
    recordsIn (String.ofList entry.line) = [entry] := by
  have single : '\n' ∉ entry.line := Json.lineFeed_not_mem_chars _
  have read : JournalRecord.read? entry.line = some entry := kept
  rw [recordsIn, String.toList_ofList, filterMap_read?_of_not_mem single, read,
    Option.toList_some]

theorem recordsIn_torn_line (kept : reread? entry = some entry) {front : List Char}
    (short : front <+: entry.line) (torn : front ≠ entry.line) :
    recordsIn (String.ofList front) = [] := by
  have single : '\n' ∉ front := fun member => Json.lineFeed_not_mem_chars _ (short.subset member)
  have unread : JournalRecord.read? front = none :=
    JournalRecord.read?_eq_none_of_front (Option.isSome_of_eq_some kept) short torn
  rw [recordsIn, String.toList_ofList, filterMap_read?_of_not_mem single, unread,
    Option.toList_none]

theorem recordsIn_line_append (kept : reread? entry = some entry) (inner : List Char) :
    recordsIn (String.ofList (entry.line ++ '\n' :: inner)) =
      entry :: recordsIn (String.ofList inner) := by
  have single : '\n' ∉ entry.line := Json.lineFeed_not_mem_chars _
  have read : JournalRecord.read? entry.line = some entry := kept
  rw [recordsIn, recordsIn, String.toList_ofList, String.toList_ofList,
    lines_append_lineFeed single, dropReturn_line, List.filterMap_cons, read]

end Line

/-- Of a segment whose end is torn off the records are read whose text is complete. -/
theorem recordsIn_front (kept : ∀ entry ∈ records, reread? entry = some entry)
    {front : List Char} (isFront : front <+: charsOf records) (start : Nat) :
    recordsIn (String.ofList front) = within (start + width front) (textEnds start records) := by
  induction records generalizing front start with
  | nil =>
      rw [List.prefix_nil.mp isFront]
      rfl
  | cons entry rest ih =>
      rw [List.forall_mem_cons] at kept
      rw [textEnds, within_cons]
      rcases front_cases isFront with short | ⟨inner, rfl, isInner⟩
      · by_cases whole : front = entry.line
        · rw [whole, recordsIn_line kept.1, if_pos (Nat.le_refl _),
            within_textEnds_eq_nil (by omega)]
        · have narrow := width_lt_of_front short whole
          have later : ¬ start + width entry.line ≤ start + width front := by omega
          rw [recordsIn_torn_line kept.1 short whole, if_neg later,
            within_textEnds_eq_nil (by omega)]
      · have widths : start + width (entry.line ++ '\n' :: inner) =
            start + width entry.line + 1 + width inner := by
          have lineFeed : Char.utf8Size '\n' = 1 := rfl
          rw [width_append, width_cons, lineFeed]
          omega
        rw [widths, if_pos (by omega), ← ih kept.2 isInner, recordsIn_line_append kept.1]

/-! ## The bytes of a front -/

/-- Whether the first bytes of a text end between two of its characters. -/
def EndsBetween (chars : List Char) (size : Nat) : Prop :=
  ∃ front, front <+: chars ∧ width front = size

instance (chars : List Char) (size : Nat) : Decidable (EndsBetween chars size) :=
  decidable_of_iff (∃ front ∈ chars.inits, width front = size)
    (by simp [EndsBetween, List.mem_inits])

theorem utf8ByteSize_eq_width (chars : List Char) :
    (String.ofList chars).utf8ByteSize = width chars := by
  rw [← String.size_toByteArray, String.toByteArray_ofList]
  induction chars with
  | nil => rfl
  | cons c rest ih =>
      rw [List.utf8Encode_cons, ByteArray.size_append, ih, List.utf8Encode_singleton, width_cons,
        List.size_toByteArray, String.length_utf8EncodeChar]

theorem textOf_front {front chars : List Char} (isFront : front <+: chars) :
    textOf (.ok ((String.ofList chars).toUTF8.extract 0 (width front))) =
      .ok (String.ofList front) := by
  rcases isFront with ⟨more, rfl⟩
  have size : width front = (String.ofList front).toByteArray.size := by
    rw [String.size_toByteArray, utf8ByteSize_eq_width]
  have bytes : (String.ofList (front ++ more)).toUTF8.extract 0 (width front) =
      (String.ofList front).toByteArray := by
    rw [String.ofList_append, String.toUTF8_eq_toByteArray, String.toByteArray_append]
    exact ByteArray.extract_append_eq_left size
  exact textOf_eq_ok_iff.mpr (congrArg Except.ok bytes)

/-- The first bytes of a segment are no text, if they end inside a character. -/
theorem textOf_torn {chars : List Char} {size : Nat} (inside : ¬ EndsBetween chars size)
    (small : size ≤ width chars) :
    textOf (.ok ((String.ofList chars).toUTF8.extract 0 size)) = .error .invalidText := by
  have invalid : ¬ ((String.ofList chars).toByteArray.extract 0 size).IsValidUTF8 := by
    intro valid
    apply inside
    have isPlace : String.Pos.Raw.IsValid (String.ofList chars) ⟨size⟩ := by
      rw [String.Pos.Raw.isValid_iff_isValidUTF8_extract_zero]
      refine ⟨?_, valid⟩
      rwa [String.Pos.Raw.le_iff, String.byteIdx_rawEndPos, utf8ByteSize_eq_width]
    rcases String.Pos.Raw.isValid_iff_exists_append.mp isPlace with ⟨front, back, split, place⟩
    refine ⟨front.toList, ⟨back.toList, ?_⟩, ?_⟩
    · rw [← String.toList_append, ← split, String.toList_ofList]
    · rw [← utf8ByteSize_eq_width, String.ofList_toList]
      exact (congrArg String.Pos.Raw.byteIdx place).symm
  have decoded : String.fromUTF8? ((String.ofList chars).toByteArray.extract 0 size) = none := by
    rw [String.fromUTF8?, dif_neg invalid]
  simp only [textOf, bind, Except.bind, String.toUTF8_eq_toByteArray, decoded]
  rfl

/-! ## Replaying a torn journal -/

/-- Write records one after the other at the end of the open segment. -/
def appendAll (journal : Journal) (volume : Volume) (records : List JournalRecord) :
    Except FileError Volume :=
  records.foldlM (fun volume entry => journal.append volume false entry) volume

/-- Writing records one after the other adds them to the log. -/
theorem Holds.appendAll {volume : Volume} {directory : Path} {place : List String} {log : Log}
    {times : List Nat} (holds : Holds volume directory place log times) {now : Nat}
    (opened : now ∈ times) (records : List JournalRecord) :
    ∃ written, Journal.appendAll ⟨place ++ [segmentName now]⟩ volume records = .ok written ∧
      Holds written directory place (log ++ records.map (segmentName now, ·)) times := by
  induction records generalizing volume log with
  | nil => exact ⟨volume, rfl, by simpa using holds⟩
  | cons entry rest ih =>
      obtain ⟨first, wrote, onward⟩ := holds.append opened entry
      obtain ⟨written, all, last⟩ := ih onward
      refine ⟨written, ?_, by simpa using last⟩
      rw [Journal.appendAll, List.foldlM_cons, wrote]
      exact all

/-- The content of a segment that was started in an empty directory is that of the records
that were written since. -/
theorem readFile_appendAll {volume opened : Volume} {directory : Path} {now : Nat}
    {journal : Journal} (emptyDirectory : volume.listDirectory directory = .ok [])
    (started : Journal.start volume directory now = .ok (opened, journal))
    (records : List JournalRecord) :
    ∃ written, journal.appendAll opened records = .ok written ∧
      written.readFile (directory.join (segmentName now)) = .ok (contentOf records) := by
  rcases Volume.leads_of_listDirectory emptyDirectory with ⟨place, leads, short, named⟩
  have empty : Holds volume directory place [] [] :=
    ⟨leads, by simp, by simp, List.nodup_nil, short, named⟩
  have fits := fits_of_start started
  rcases empty.start fits List.not_mem_nil with ⟨_, begun, holds⟩
  rw [started, Except.ok.injEq, Prod.mk.injEq] at begun
  rcases begun with ⟨rfl, rfl⟩
  rcases holds.appendAll List.mem_cons_self records with ⟨written, wrote, last⟩
  refine ⟨written, wrote, ?_⟩
  have own : under (records.map (segmentName now, ·)) (segmentName now) = records := by
    simp [under, List.filter_map, Function.comp_def]
  have present := get?_shelf ([] ++ records.map (segmentName now, ·))
    (List.mem_map_of_mem (f := segmentName) (List.mem_cons_self : now ∈ [now]))
  rw [List.nil_append, own] at present
  exact last.leads.readFile fits.ordinary fits.path present

/-- A directory with one segment is replayed to the records of that segment. -/
theorem replay_of_single {torn : Volume} {directory : Path} {now : Nat} {bytes : ByteArray}
    (listed : torn.listDirectory directory = .ok [(segmentName now, .file bytes)])
    (left : torn.readFile (directory.join (segmentName now)) = .ok bytes) :
    Journal.replay torn directory = (textOf (.ok bytes)).map recordsIn := by
  have segments : segmentsIn torn directory = .ok [.ok bytes] := by
    have single : segmentNames [segmentName now] = [segmentName now] := by
      simp [segmentNames, ascending, placeName, isSegment_segmentName]
    rw [segmentsIn, listed]
    simp only [List.map_cons, List.map_nil, single, left]
  rw [Journal.replay, segments]
  simp only [bind, Except.bind, recordsOf]
  cases textOf (.ok bytes) with
  | error error => rfl
  | ok text =>
      simp only [Except.map, pure, Except.pure, List.append_nil]

theorem size_contentOf (records : List JournalRecord) :
    (contentOf records).size = width (charsOf records) := by
  rw [contentOf, String.toUTF8_eq_toByteArray, String.size_toByteArray, utf8ByteSize_eq_width]

theorem replay_of_between {torn : Volume} {directory : Path} {now size : Nat}
    {records : List JournalRecord} (kept : ∀ entry ∈ records, reread? entry = some entry)
    (between : EndsBetween (charsOf records) size)
    (listed : torn.listDirectory directory =
      .ok [(segmentName now, .file ((contentOf records).extract 0 size))])
    (left : torn.readFile (directory.join (segmentName now)) =
      .ok ((contentOf records).extract 0 size)) :
    Journal.replay torn directory = .ok (within size (textEnds 0 records)) := by
  rcases between with ⟨front, isFront, rfl⟩
  rw [replay_of_single listed left, contentOf, textOf_front isFront, Except.map,
    recordsIn_front kept isFront 0, Nat.zero_add]

theorem replay_of_not_between {torn : Volume} {directory : Path} {now size : Nat}
    {records : List JournalRecord} (inside : ¬ EndsBetween (charsOf records) size)
    (small : size ≤ (contentOf records).size)
    (listed : torn.listDirectory directory =
      .ok [(segmentName now, .file ((contentOf records).extract 0 size))])
    (left : torn.readFile (directory.join (segmentName now)) =
      .ok ((contentOf records).extract 0 size)) :
    Journal.replay torn directory = .error .invalidText := by
  rw [size_contentOf] at small
  rw [replay_of_single listed left, contentOf, textOf_torn inside small]
  rfl

/-- A segment of which only the first bytes are left is replayed exactly when these end
between two characters, and then to the records, in order, whose text lies within them. -/
theorem replay_torn {volume opened : Volume} {directory : Path} {now : Nat} {journal : Journal}
    (emptyDirectory : volume.listDirectory directory = .ok [])
    (started : Journal.start volume directory now = .ok (opened, journal))
    {records : List JournalRecord}
    (kept : ∀ entry ∈ records, JournalRecord.read? entry.line = some entry) :
    ∃ written, journal.appendAll opened records = .ok written ∧
      written.readFile (directory.join (segmentName now)) = .ok (contentOf records) ∧
      ∀ size ≤ (contentOf records).size, ∀ torn other,
        torn.listDirectory other =
          .ok [(segmentName now, .file ((contentOf records).extract 0 size))] →
        torn.readFile (other.join (segmentName now)) = .ok ((contentOf records).extract 0 size) →
        Journal.replay torn other =
          if EndsBetween (charsOf records) size then .ok (within size (textEnds 0 records))
          else .error .invalidText := by
  obtain ⟨written, wrote, content⟩ := readFile_appendAll emptyDirectory started records
  refine ⟨written, wrote, content, ?_⟩
  intro size small torn other listed left
  split
  · rename_i between
    exact replay_of_between kept between listed left
  · rename_i inside
    exact replay_of_not_between inside small listed left

/-! ## A character that is torn -/

/-- Two records, of which the second has a character of two bytes in its text. -/
def accented : List JournalRecord :=
  [⟨"a", .object []⟩, ⟨"b", .object [("n", .string "é")]⟩]

theorem kept_accented : ∀ entry ∈ accented, JournalRecord.read? entry.line = some entry := by
  rw [accented, List.forall_mem_cons, List.forall_mem_singleton]
  exact ⟨rfl, rfl⟩

theorem size_accented : (contentOf accented).size = 72 := by
  rw [size_contentOf]
  rfl

/-- The volume with a directory for a journal. -/
def vacant : Volume := .directory [("wal", .directory [])]

/-- The volume with a journal of one segment. -/
def holding (bytes : ByteArray) : Volume :=
  .directory [("wal", .directory [(segmentName 1, .file bytes)])]

theorem start_vacant : ∃ opened journal,
    Journal.start vacant ⟨[], ["wal"]⟩ 1 = .ok (opened, journal) := ⟨_, _, rfl⟩

theorem readFile_holding (bytes : ByteArray) :
    (holding bytes).readFile (Path.join ⟨[], ["wal"]⟩ (segmentName 1)) = .ok bytes := rfl

/-- If the second record is torn off in front of the character, the first one is left. -/
theorem replay_torn_in_front :
    ∃ opened journal written, Journal.start vacant ⟨[], ["wal"]⟩ 1 = .ok (opened, journal) ∧
      journal.appendAll opened accented = .ok written ∧
      written.readFile (Path.join ⟨[], ["wal"]⟩ (segmentName 1)) = .ok (contentOf accented) ∧
      Journal.replay (holding ((contentOf accented).extract 0 65)) ⟨[], ["wal"]⟩ =
        .ok [⟨"a", .object []⟩] := by
  obtain ⟨opened, journal, started⟩ := start_vacant
  obtain ⟨written, wrote, content, replays⟩ := replay_torn rfl started kept_accented
  refine ⟨opened, journal, written, started, wrote, content, ?_⟩
  have between : EndsBetween (charsOf accented) 65 := by decide +kernel
  have small : 65 ≤ (contentOf accented).size := by rw [size_accented]; decide
  rw [replays 65 small _ _ rfl (readFile_holding _), if_pos between]
  rfl

/-- If the second record is torn off inside the character, the first one is not read
either, although its text is complete. -/
theorem torn_character_refused :
    ∃ opened journal written, Journal.start vacant ⟨[], ["wal"]⟩ 1 = .ok (opened, journal) ∧
      journal.appendAll opened accented = .ok written ∧
      written.readFile (Path.join ⟨[], ["wal"]⟩ (segmentName 1)) = .ok (contentOf accented) ∧
      (∀ entry ∈ accented, JournalRecord.read? entry.line = some entry) ∧
      66 ≤ (contentOf accented).size ∧
      within 66 (textEnds 0 accented) = [⟨"a", .object []⟩] ∧
      Journal.replay (holding ((contentOf accented).extract 0 66)) ⟨[], ["wal"]⟩ =
        .error .invalidText := by
  obtain ⟨opened, journal, started⟩ := start_vacant
  obtain ⟨written, wrote, content⟩ := readFile_appendAll rfl started accented
  have inside : ¬ EndsBetween (charsOf accented) 66 := by decide +kernel
  have small : 66 ≤ (contentOf accented).size := by rw [size_accented]; decide
  exact ⟨opened, journal, written, started, wrote, content, kept_accented, small, rfl,
    replay_of_not_between inside small rfl (readFile_holding _)⟩

end Journal

end Folio
