import Folio.Proofs.Journal.Contents
import Folio.Proofs.Journal.Endings

/-!
# New records behind old ones

Records are written at the end of the segment that was opened, while a journal is replayed
in the order of the names of its segments.  So new records come after the old ones only if
no segment with a later name holds a record, and if the new segment, should it be there
already, ends with a line that is complete.
-/

namespace Folio.Journal

open Volume

variable {volume opened : Volume} {directory : Path} {place : List String}
  {entries more : List (String × Volume)} {name text : String}
  {front rest segments : List (String × String)}

/-! ## Which segment comes last -/

/-- Whether records at the end of a segment come after all others: the later segments have
none, and the segment ends with a complete line. -/
structure GoesLast (name : String) (segments : List (String × String)) : Prop where
  later : ∀ segment ∈ segments,
    Text.bytesOf name < Text.bytesOf segment.1 → recordsIn segment.2 = []
  own : ∀ segment ∈ segments, segment.1 = name → Ended segment.2

/-- A segment comes last if it is ended and those behind it have no records. -/
theorem goesLast_iff
    (ordered : (front ++ (name, text) :: rest).Pairwise fun first second =>
      ¬ Text.bytesOf second.1 < Text.bytesOf first.1)
    (distinct : ((front ++ (name, text) :: rest).map Prod.fst).Nodup) :
    GoesLast name (front ++ (name, text) :: rest) ↔ Ended text ∧ recordsInAll rest = [] := by
  rcases lt_and_lt_of_ordered ordered distinct with ⟨below, above⟩
  constructor
  · intro last
    refine ⟨last.own (name, text) (by simp) rfl, ?_⟩
    rw [recordsInAll, List.flatMap_eq_nil_iff]
    intro segment member
    exact last.later segment (by simp [member]) (Text.bytesOf_lt_iff.mpr (above segment member))
  · rintro ⟨ended, none⟩
    rw [recordsInAll, List.flatMap_eq_nil_iff] at none
    constructor
    · intro segment member later
      rw [Text.bytesOf_lt_iff] at later
      rcases List.mem_append.mp member with inFront | inRest
      · exact absurd later (String.lt_asymm (below segment inFront))
      · rcases List.mem_cons.mp inRest with rfl | behind
        · exact absurd later (String.lt_irrefl _)
        · exact none segment behind
    · rintro segment member rfl
      rcases List.mem_append.mp member with inFront | inRest
      · exact absurd (below segment inFront) (String.lt_irrefl _)
      · rcases List.mem_cons.mp inRest with same | behind
        · rw [same]
          exact ended
        · exact absurd (above segment behind) (String.lt_irrefl _)

/-! ## Writing records -/

theorem toUTF8_append_contentOf (text : String) (records : List JournalRecord) :
    text.toUTF8 ++ contentOf records = (text ++ String.ofList (charsOf records)).toUTF8 := by
  rw [contentOf, String.toUTF8_eq_toByteArray, String.toUTF8_eq_toByteArray,
    String.toUTF8_eq_toByteArray, String.toByteArray_append]

/-- Writing records changes the content of the open segment and nothing else. -/
theorem exists_of_appendAll (leads : Leads volume directory place entries) {content : ByteArray}
    (present : Fields.get? entries name = some (.file content)) (records : List JournalRecord) :
    ∃ written more, Journal.appendAll ⟨place ++ [name]⟩ volume records = .ok written ∧
      Leads written directory place more ∧ Fields.names more = Fields.names entries ∧
      Fields.get? more name = some (.file (content ++ contentOf records)) ∧
      ∀ other, other ≠ name → Fields.get? more other = Fields.get? entries other := by
  induction records using List.reverseRecOn with
  | nil =>
      refine ⟨volume, entries, rfl, leads, rfl, ?_, fun _ _ => rfl⟩
      rw [contentOf_nil, ByteArray.append_empty, present]
  | append_singleton records entry ih =>
      rcases ih with ⟨written, more, wrote, leads, names, own, others⟩
      have noDirectory : ∀ inner, Fields.get? more name ≠ some (.directory inner) := by simp [own]
      have led :=
        leads.put noDirectory (.file (content ++ contentOf records ++ bytesOf entry))
      refine ⟨_, _, ?_, led, ?_, ?_, ?_⟩
      · rw [appendAll, List.foldlM_append, ← appendAll, wrote]
        simp only [bind, Except.bind, List.foldlM_cons, List.foldlM_nil, append, Bool.false_eq_true,
          if_false, leads.append own]
        rfl
      · have bound : name ∈ Fields.names more := by
          rw [← Fields.get?_isSome_iff, own]
          rfl
        rw [Fields.names_put, if_pos bound, names]
      · rw [Fields.get?_put_self, contentOf_concat, ByteArray.append_assoc]
      · intro other different
        rw [Fields.get?_put_of_ne _ _ different, others other different]

/-- When the text of a segment is another one, the others are what they were. -/
theorem Contents.rewrite {other : Volume} {elsewhere : List String} {new : String}
    (contents : Contents volume directory (front ++ (name, text) :: rest))
    (short : directory.size ≤ maxPathSize) (named : directory.isEmpty = false)
    (leads : Leads volume directory place entries) (leadsToo : Leads other directory elsewhere more)
    (nodup : (Fields.names entries).Nodup) (names : Fields.names more = Fields.names entries)
    (own : other.readFile (directory.join name) = .ok new.toUTF8)
    (others : ∀ other, other ≠ name → Fields.get? more other = Fields.get? entries other) :
    Contents other directory (front ++ (name, new) :: rest) := by
  have listed := leads.listDirectory short named
  have distinct := contents.distinct listed nodup
  have ordered := pairwise_bytesOf_iff.mp contents.ordered
  have same : (front ++ (name, new) :: rest).map Prod.fst =
      (front ++ (name, text) :: rest).map Prod.fst := by simp
  constructor
  · rw [lists_iff (leadsToo.listDirectory short named), names, same, ← lists_iff listed]
    exact contents.names
  · rw [pairwise_bytesOf_iff, same]
    exact ordered
  · rcases lt_and_lt_of_ordered contents.ordered distinct with ⟨below, above⟩
    have kept : ∀ segment ∈ front ++ (name, text) :: rest, segment.1 ≠ name →
        other.readFile (directory.join segment.1) = .ok segment.2.toUTF8 := by
      intro segment member different
      have isLog := contents.isLog listed member
      rw [← contents.texts segment member, leads.readFile_eq isLog.moves isLog.down,
        leadsToo.readFile_eq isLog.moves isLog.down, others _ different]
    intro segment member
    rcases List.mem_append.mp member with inFront | inRest
    · exact kept segment (by simp [inFront]) (String.ne_of_lt (below segment inFront))
    · rcases List.mem_cons.mp inRest with rfl | behind
      · exact own
      · exact kept segment (by simp [behind]) (String.ne_of_lt (above segment behind)).symm

/-! ## The open segment -/

/-- Whether a directory holds a segment with some content, so that records can be written
behind it. -/
structure IsOpen (volume : Volume) (directory : Path) (place : List String)
    (entries : List (String × Volume)) (name : String) (content : ByteArray) : Prop where
  leads : Leads volume directory place entries
  short : directory.size ≤ maxPathSize
  named : directory.isEmpty = false
  distinct : (Fields.names entries).Nodup
  ordinary : Ordinary name
  fits : (directory.join name).size ≤ maxPathSize
  isLog : IsLog name
  present : Fields.get? entries name = some (.file content)

section IsOpen

variable {content : ByteArray}

theorem IsOpen.listed (isOpen : IsOpen volume directory place entries name content) :
    volume.listDirectory directory = .ok entries :=
  isOpen.leads.listDirectory isOpen.short isOpen.named

/-- The open segment is one of those that are replayed, and its content is its text. -/
theorem IsOpen.exists_split (isOpen : IsOpen volume directory place entries name content)
    (contents : Contents volume directory segments) :
    ∃ front text rest, segments = front ++ (name, text) :: rest ∧ content = text.toUTF8 := by
  have bound : name ∈ Fields.names entries := by
    rw [← Fields.get?_isSome_iff, isOpen.present]
    rfl
  have among : name ∈ segments.map Prod.fst := by
    rw [((lists_iff isOpen.listed).mp contents.names).mem_iff, List.mem_filter]
    exact ⟨bound, by simpa using isOpen.isLog⟩
  rcases List.mem_map.mp among with ⟨⟨_, text⟩, member, rfl⟩
  rcases List.append_of_mem member with ⟨front, rest, split⟩
  refine ⟨front, text, rest, split, ?_⟩
  have read := contents.texts _ member
  rw [isOpen.leads.readFile isOpen.ordinary isOpen.fits isOpen.present] at read
  exact Except.ok.inj read

/-- Records that are written stand behind the text of the open segment. -/
theorem IsOpen.exists_written (isOpen : IsOpen volume directory place entries name text.toUTF8)
    (contents : Contents volume directory (front ++ (name, text) :: rest))
    (records : List JournalRecord) :
    ∃ written, Journal.appendAll ⟨place ++ [name]⟩ volume records = .ok written ∧
      Contents written directory
        (front ++ (name, text ++ String.ofList (charsOf records)) :: rest) := by
  rcases exists_of_appendAll isOpen.leads isOpen.present records with
    ⟨written, more, wrote, leads, names, own, others⟩
  refine ⟨written, wrote, contents.rewrite isOpen.short isOpen.named isOpen.leads leads
    isOpen.distinct names ?_ others⟩
  rw [toUTF8_append_contentOf] at own
  exact leads.readFile isOpen.ordinary isOpen.fits own

/-- Whether records that are written to a journal are replayed behind those before,
whatever they are. -/
def AppendsLast (journal : Journal) (opened : Volume) (directory : Path)
    (before : List JournalRecord) : Prop :=
  ∀ records, (∀ entry ∈ records, JournalRecord.read? entry.line = some entry) →
    ∃ written, journal.appendAll opened records = .ok written ∧
      Journal.replay written directory = .ok (before ++ records)

/-- Records are replayed behind those before exactly when the open segment comes last. -/
theorem IsOpen.appendsLast_iff (isOpen : IsOpen volume directory place entries name content)
    (before : List JournalRecord) :
    AppendsLast ⟨place ++ [name]⟩ volume directory before ↔
      ∃ segments, Contents volume directory segments ∧ recordsInAll segments = before ∧
        GoesLast name segments := by
  constructor
  · intro appendsLast
    rcases appendsLast [] (by simp) with ⟨same, nothing, replayed⟩
    cases nothing
    rw [List.append_nil] at replayed
    rcases replay_eq_ok_iff.mp replayed with ⟨segments, contents, rfl⟩
    rcases isOpen.exists_split contents with ⟨front, text, rest, rfl, rfl⟩
    refine ⟨_, contents, rfl, ?_⟩
    rw [goesLast_iff contents.ordered (contents.distinct isOpen.listed isOpen.distinct),
      ← appends_iff]
    intro records kept
    rcases appendsLast records kept with ⟨written, wrote, last⟩
    rcases isOpen.exists_written contents records with ⟨_, wroteToo, contentsToo⟩
    cases wrote.symm.trans wroteToo
    rw [replay_eq_ok_iff.mpr ⟨_, contentsToo, rfl⟩, Except.ok.injEq, recordsInAll_append,
      recordsInAll_append, recordsInAll_cons, recordsInAll_cons, List.append_assoc,
      List.append_cancel_left_eq] at last
    exact last
  · rintro ⟨segments, contents, rfl, goesLast⟩ records kept
    rcases isOpen.exists_split contents with ⟨front, text, rest, rfl, rfl⟩
    rw [goesLast_iff contents.ordered (contents.distinct isOpen.listed isOpen.distinct),
      ← appends_iff] at goesLast
    rcases isOpen.exists_written contents records with ⟨written, wrote, contentsToo⟩
    refine ⟨written, wrote, ?_⟩
    rw [replay_eq_ok_iff.mpr ⟨_, contentsToo, rfl⟩, recordsInAll_append, recordsInAll_append,
      recordsInAll_cons, recordsInAll_cons, goesLast records kept, List.append_assoc,
      List.append_assoc, List.append_assoc]

end IsOpen

/-! ## Opening a journal -/

/-- Making the directory of a journal brings no segments to light, if it was there or its
path does not go up. -/
theorem contents_of_makeSteps {made : Volume} (contents : Contents volume directory segments)
    (reach : (volume.listDirectory directory).isOk ∨ stepUp ∉ directory.steps)
    (steps : volume.makeSteps directory.start directory.steps = .ok (made, place))
    (leads : Leads made directory place entries) (short : directory.size ≤ maxPathSize)
    (named : directory.isEmpty = false) : Contents made directory segments := by
  cases listed : volume.listDirectory directory with
  | ok old =>
      rcases leads_of_listDirectory listed with ⟨there, leadsThere, _, _⟩
      have nothing := makeSteps_append leadsThere.reached leadsThere.found []
      rw [List.append_nil, steps] at nothing
      cases nothing
      exact contents
  | error error =>
      have straight : stepUp ∉ directory.steps := by
        rcases reach with isOk | straight
        · rw [listed] at isOk
          contradiction
        · exact straight
      have vacant : entries = [] := by
        refine eq_nil_of_makeSteps steps straight ?_ leads.found
        intro inside there reached found
        have isListed := Leads.listDirectory ⟨reached, found⟩ short named
        rw [listed] at isListed
        contradiction
      have none : segments = [] := by
        have lists := contents.names
        rw [Lists, listed] at lists
        exact List.map_eq_nil_iff.mp lists.2
      subst none vacant
      exact ⟨(lists_iff (leads.listDirectory short named)).mpr (by simp), .nil, by simp⟩

theorem exists_isOpen {made : Volume} (opens : Opens made directory name opened place entries)
    (short : directory.size ≤ maxPathSize) (named : directory.isEmpty = false)
    (distinct : (Fields.names entries).Nodup) (isLog : IsLog name) :
    ∃ more content, IsOpen opened directory place more name content := by
  rcases opens.file with ⟨missing, rfl⟩ | ⟨⟨content, present⟩, rfl⟩
  · have noDirectory : ∀ inner, Fields.get? entries name ≠ some (.directory inner) := by
      simp [missing]
    exact ⟨_, _, opens.leads.put noDirectory _, short, named,
      Fields.nodup_names_put distinct _ _, opens.ordinary, opens.short, isLog,
      Fields.get?_put_self _ _ _⟩
  · exact ⟨entries, content, opens.leads, short, named, distinct, opens.ordinary, opens.short,
      isLog, present⟩

/-- An empty segment takes no part in which one comes last. -/
theorem goesLast_insert_iff :
    GoesLast name (front ++ (name, "") :: rest) ↔ GoesLast name (front ++ rest) := by
  have wider {segment : String × String} (member : segment ∈ front ++ rest) :
      segment ∈ front ++ (name, "") :: rest := by
    rw [List.mem_append, List.mem_cons]
    exact (List.mem_append.mp member).imp_right .inr
  have cases {segment : String × String} (member : segment ∈ front ++ (name, "") :: rest) :
      segment = (name, "") ∨ segment ∈ front ++ rest := by
    rw [List.mem_append, List.mem_cons] at member
    rw [List.mem_append]
    exact or_left_comm.mp member
  constructor
  · intro last
    exact ⟨fun segment member => last.later segment (wider member),
      fun segment member => last.own segment (wider member)⟩
  · intro last
    constructor
    · intro segment member
      rcases cases member with rfl | other
      · exact fun _ => rfl
      · exact last.later segment other
    · intro segment member
      rcases cases member with rfl | other
      · exact fun _ => rfl
      · exact last.own segment other

/-- The segment that is opened has its place among those that were there. -/
theorem exists_contents {made : Volume} (opens : Opens made directory name opened place entries)
    (short : directory.size ≤ maxPathSize) (named : directory.isEmpty = false) (isLog : IsLog name)
    (contents : Contents made directory segments) :
    ∃ found, Contents opened directory found ∧ recordsInAll found = recordsInAll segments ∧
      (GoesLast name found ↔ GoesLast name segments) := by
  rcases opens.file with ⟨missing, rfl⟩ | ⟨_, rfl⟩
  · have listed := opens.leads.listDirectory short named
    have absent : name ∉ Fields.names entries := Fields.get?_eq_none_iff.mp missing
    have noDirectory : ∀ inner, Fields.get? entries name ≠ some (.directory inner) := by
      simp [missing]
    have leads := opens.leads.put noDirectory (.file ByteArray.empty)
    have names := (lists_iff listed).mp contents.names
    have ordered := pairwise_bytesOf_iff.mp contents.ordered
    have new : name ∉ segments.map Prod.fst := by
      rw [names.mem_iff, List.mem_filter]
      exact fun inside => absent inside.1
    have itself : [name].filter (IsLog ·) = [name] := List.filter_eq_self.mpr (by simpa using isLog)
    rcases exists_place ordered name "" with ⟨front, rest, rfl, sorted⟩
    refine ⟨front ++ (name, "") :: rest, ?_, ?_, goesLast_insert_iff⟩
    · constructor
      · rw [lists_iff (leads.listDirectory short named), Fields.names_put, if_neg absent,
          List.filter_append, itself]
        exact (names_insert_perm front rest name "").trans
          ((names.cons name).trans (List.perm_append_singleton name _).symm)
      · exact pairwise_bytesOf_iff.mpr sorted
      · intro segment member
        rw [List.mem_append, List.mem_cons, or_left_comm, ← List.mem_append] at member
        rcases member with rfl | old
        · exact leads.readFile opens.ordinary opens.short (Fields.get?_put_self _ _ _)
        · have isLogToo := contents.isLog listed old
          have different : segment.1 ≠ name := by
            rintro rfl
            exact new (List.mem_map_of_mem old)
          rw [← contents.texts segment old, leads.readFile_eq isLogToo.moves isLogToo.down,
            opens.leads.readFile_eq isLogToo.moves isLogToo.down,
            Fields.get?_put_of_ne _ _ different]
    · rw [recordsInAll_append, recordsInAll_append, recordsInAll_cons]
      rfl
  · exact ⟨segments, contents, rfl, Iff.rfl⟩

theorem replay_of_isEmpty (empty : directory.isEmpty = true) (volume : Volume) :
    Journal.replay volume directory = .ok [] := by
  have steps : directory.steps = [""] := by simpa [Path.isEmpty] using empty
  have short : directory.size ≤ maxPathSize := by
    rw [Path.size, steps]
    decide
  have missing : volume.listDirectory directory = .error .notFound := by
    rw [listDirectory, locate_of_isEmpty short empty]
    rfl
  rw [Journal.replay, segmentsIn, missing]
  rfl

/-- Records that are written to a journal which was opened are replayed, in order, behind the
records that were replayed before, exactly when the directory has a name and the segment
that is opened comes last: no segment of the directory that sorts behind it holds a record,
and if it was there already, nothing but blanks follows its last line feed.  A directory
that is only found once the journal has been opened, because its path goes up from
directories that were missing, may bring segments with it; these count as well, and must
not hold records that were not there before. -/
theorem appendsLast_of_start_iff {now : Nat} {journal : Journal} {before : List JournalRecord}
    (distinct : volume.Distinct) (replayed : Journal.replay volume directory = .ok before)
    (started : Journal.start volume directory now = .ok (opened, journal)) :
    ∃ segments, Contents volume directory segments ∧ recordsInAll segments = before ∧
      (AppendsLast journal opened directory before ↔
        directory.isEmpty = false ∧ ∃ found, Contents opened directory found ∧
          recordsInAll found = before ∧ GoesLast (segmentName now) found) ∧
      ((volume.listDirectory directory).isOk ∨ stepUp ∉ directory.steps →
        (AppendsLast journal opened directory before ↔
          directory.isEmpty = false ∧ GoesLast (segmentName now) segments)) := by
  rcases replay_eq_ok_iff.mp replayed with ⟨segments, contents, rfl⟩
  refine ⟨segments, contents, rfl, ?_⟩
  cases named : directory.isEmpty with
  | true =>
      have lost : ¬ AppendsLast journal opened directory (recordsInAll segments) := by
        intro appendsLast
        rcases appendsLast [.bare] (List.forall_mem_singleton.mpr JournalRecord.read?_bare) with
          ⟨written, _, last⟩
        rw [replay_of_isEmpty named, Except.ok.injEq] at last
        simp at last
      simp [lost]
  | false =>
      rcases exists_of_start started with ⟨made, place, entries, short, steps, rfl, opens⟩
      have isLog := isLog_segmentName now
      have nodup := (distinct.makeSteps steps) _ _ opens.leads.found
      rcases exists_isOpen opens short named nodup isLog with ⟨more, content, isOpen⟩
      have exactly := isOpen.appendsLast_iff (recordsInAll segments)
      refine ⟨by simpa using exactly, ?_⟩
      intro reach
      have kept := contents_of_makeSteps contents reach steps opens.leads short named
      rcases exists_contents opens short named isLog kept with ⟨found, foundContents, same, alike⟩
      rw [exactly, ← alike]
      constructor
      · rintro ⟨other, otherContents, -, last⟩
        rw [foundContents.unique otherContents]
        exact ⟨rfl, last⟩
      · rintro ⟨-, last⟩
        exact ⟨found, foundContents, same, last⟩

/-- The volume with a journal of one segment, in which a record was written under a key. -/
def heldSince (time : Nat) : Volume :=
  .directory [("wal", .directory [(segmentName time, .file (contentOf [⟨"a", .null⟩]))])]

theorem distinct_heldSince (time : Nat) : (heldSince time).Distinct := by
  have segment : Distinct (.directory [(segmentName time, .file (contentOf [⟨"a", .null⟩]))]) :=
    distinct_empty.directory_put (distinct_file _)
  exact distinct_empty.directory_put segment

theorem holds_heldSince {time : Nat} (fits : Fits ⟨[], ["wal"]⟩ time) :
    Holds (heldSince time) ⟨[], ["wal"]⟩ ["wal"] [(segmentName time, ⟨"a", .null⟩)] [time] where
  leads := by
    have own : under [(segmentName time, ⟨"a", .null⟩)] (segmentName time) = [⟨"a", .null⟩] :=
      under_singleton_self _ _
    refine ⟨rfl, ?_⟩
    rw [shelf, List.map_singleton, List.map_singleton, own]
    rfl
  filed := by simp
  fits := by simpa using fits
  distinct := List.nodup_singleton time
  short := by decide
  named := by decide

/-- A segment with a number of as many digits comes last, so that the record that is written
to it is replayed behind the one that was there. -/
theorem appendsLast_of_same_length :
    ∃ opened journal written,
      Journal.start (heldSince 1) ⟨[], ["wal"]⟩ 2 = .ok (opened, journal) ∧
      journal.appendAll opened [⟨"b", .null⟩] = .ok written ∧
      Journal.replay written ⟨[], ["wal"]⟩ = .ok [⟨"a", .null⟩, ⟨"b", .null⟩] := by
  have fits : Fits ⟨[], ["wal"]⟩ 1 := ⟨by decide, by decide⟩
  have fitsToo : Fits ⟨[], ["wal"]⟩ 2 := ⟨by decide, by decide⟩
  have held := holds_heldSince fits
  rcases held.start fitsToo (by decide) with ⟨opened, started, _⟩
  rcases appendsLast_of_start_iff (distinct_heldSince 1) held.replay started with
    ⟨segments, contents, _, _, straight⟩
  have listed : (heldSince 1).listDirectory ⟨[], ["wal"]⟩ =
      .ok [(segmentName 1, .file (contentOf [⟨"a", .null⟩]))] := rfl
  have only : ∀ segment ∈ segments, segment.1 = segmentName 1 := by
    intro segment member
    have among := ((lists_iff listed).mp contents.names).mem_iff.mp (List.mem_map_of_mem member)
    exact List.mem_singleton.mp (List.mem_filter.mp among).1
  have last : GoesLast (segmentName 2) segments := by
    constructor
    · intro segment member later
      rw [only segment member] at later
      exact absurd later (by decide)
    · intro segment member same
      rw [only segment member] at same
      exact absurd same (by decide)
  have appendsLast := (straight (.inr (by decide))).mpr ⟨by decide, last⟩
  have kept : JournalRecord.read? (JournalRecord.line ⟨"b", .null⟩) = some ⟨"b", .null⟩ := rfl
  rcases appendsLast [⟨"b", .null⟩] (List.forall_mem_singleton.mpr kept) with
    ⟨written, wrote, replayed⟩
  exact ⟨opened, _, written, started, wrote, replayed⟩

/-- A segment with a number of more digits sorts before one with a smaller number, so that
the record that is written to it is replayed in front of the one that was there. -/
theorem appended_first_of_longer_number :
    ∃ opened journal written,
      (heldSince 9).Distinct ∧
      Journal.replay (heldSince 9) ⟨[], ["wal"]⟩ = .ok [⟨"a", .null⟩] ∧
      Journal.start (heldSince 9) ⟨[], ["wal"]⟩ 10 = .ok (opened, journal) ∧
      JournalRecord.read? (JournalRecord.line ⟨"b", .null⟩) = some ⟨"b", .null⟩ ∧
      journal.appendAll opened [⟨"b", .null⟩] = .ok written ∧
      Journal.replay written ⟨[], ["wal"]⟩ = .ok [⟨"b", .null⟩, ⟨"a", .null⟩] := by
  have fits : Fits ⟨[], ["wal"]⟩ 9 := ⟨by decide, by decide⟩
  have fitsToo : Fits ⟨[], ["wal"]⟩ 10 := ⟨by decide, by decide⟩
  have held := holds_heldSince fits
  rcases held.start fitsToo (by decide) with ⟨opened, started, holds⟩
  rcases holds.appendAll (by decide : 10 ∈ [9] ++ [10]) [⟨"b", .null⟩] with ⟨written, wrote, last⟩
  refine ⟨opened, _, written, distinct_heldSince 9, held.replay, started, rfl, wrote, ?_⟩
  rw [last.replay]
  rfl

end Folio.Journal
