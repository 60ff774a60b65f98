import Folio.Proofs.Journal.Segments
import Folio.Proofs.Text.Order

/-!
# The contents of a directory

A journal can be replayed exactly when every file of its directory that has the extension
is found and holds a text.  It gives the records of these texts, in the order of the bytes
of the names of the files; a directory that is missing has no files.
-/

namespace Folio.Journal

open Text

/-- Whether names are those of the segments in a directory, in whatever order.  A directory
that is missing has no segments. -/
def Lists (volume : Volume) (directory : Path) (names : List String) : Prop :=
  match volume.listDirectory directory with
  | .ok entries => names.Perm ((entries.map Prod.fst).filter (IsLog ·))
  | .error error => error = .notFound ∧ names = []

/-- Whether the segments in a directory have the given names and hold the given texts, in
the order of the bytes of the names. -/
structure Contents (volume : Volume) (directory : Path) (segments : List (String × String)) :
    Prop where
  names : Lists volume directory (segments.map Prod.fst)
  ordered : segments.Pairwise fun first second => ¬ Text.bytesOf second.1 < Text.bytesOf first.1
  texts : ∀ segment ∈ segments,
    volume.readFile (directory.join segment.1) = .ok segment.2.toUTF8

/-- The records in segments with names and texts. -/
def recordsInAll (segments : List (String × String)) : List JournalRecord :=
  segments.flatMap fun segment => recordsIn segment.2

theorem recordsInAll_append (front rest : List (String × String)) :
    recordsInAll (front ++ rest) = recordsInAll front ++ recordsInAll rest :=
  List.flatMap_append

theorem recordsInAll_cons (name text : String) (rest : List (String × String)) :
    recordsInAll ((name, text) :: rest) = recordsIn text ++ recordsInAll rest := by
  rw [recordsInAll, List.flatMap_cons]
  rfl

/-- Segments have records if all of them hold texts. -/
theorem recordsOf_map_eq_ok_iff {names : List String} {read : String → Segment}
    {records : List JournalRecord} :
    recordsOf (names.map read) = .ok records ↔ ∃ segments : List (String × String),
      segments.map Prod.fst = names ∧ (∀ segment ∈ segments, read segment.1 = .ok segment.2.toUTF8) ∧
        recordsInAll segments = records := by
  induction names generalizing records with
  | nil =>
      constructor
      · intro none
        cases none
        exact ⟨[], rfl, by simp, rfl⟩
      · rintro ⟨segments, none, _, rfl⟩
        rw [List.map_eq_nil_iff.mp none]
        rfl
  | cons name rest ih =>
      rw [List.map_cons, recordsOf, bind_eq_ok_iff]
      constructor
      · rintro ⟨text, first, others⟩
        rcases bind_eq_ok_iff.mp others with ⟨more, later, joined⟩
        cases joined
        rcases ih.mp later with ⟨segments, rfl, texts, rfl⟩
        refine ⟨(name, text) :: segments, rfl, ?_, rfl⟩
        exact List.forall_mem_cons.mpr ⟨textOf_eq_ok_iff.mp first, texts⟩
      · rintro ⟨segments, named, texts, rfl⟩
        rcases List.map_eq_cons_iff.mp named with ⟨⟨name, text⟩, segments, rfl, rfl, rfl⟩
        rw [List.forall_mem_cons] at texts
        refine ⟨text, textOf_eq_ok_iff.mpr texts.1, bind_eq_ok_iff.mpr ⟨_, ?_, rfl⟩⟩
        exact ih.mpr ⟨segments, rfl, texts.2, rfl⟩

theorem eq_segmentNames_iff {names listed : List String} :
    names = segmentNames listed ↔
      names.Perm (listed.filter (IsLog ·)) ∧ names.Pairwise (· ≤ ·) := by
  have permuted : (segmentNames listed).Perm (listed.filter (IsLog ·)) :=
    filter_isSegment listed ▸ (ascending_perm listed).filter _
  have sorted : (segmentNames listed).Pairwise (· ≤ ·) := (sorted_ascending listed).filter _
  constructor
  · rintro rfl
    exact ⟨permuted, sorted⟩
  · rintro ⟨same, ordered⟩
    exact eq_of_perm_of_sorted (same.trans permuted.symm) ordered sorted

/-- The segments that are found are those that are listed, each read by its name. -/
theorem segmentsIn_eq_ok_iff {volume : Volume} {directory : Path} {found : List Segment} :
    segmentsIn volume directory = .ok found ↔ ∃ names,
      Lists volume directory names ∧ names.Pairwise (· ≤ ·) ∧
        (names.map fun name => volume.readFile (directory.join name)) = found := by
  rw [segmentsIn]
  unfold Lists
  cases volume.listDirectory directory with
  | ok entries =>
      simp only [Except.ok.injEq, ← and_assoc, ← eq_segmentNames_iff]
      rw [exists_eq_left]
  | error error =>
      by_cases missing : error = .notFound
      · subst missing
        constructor
        · rintro ⟨⟩
          exact ⟨[], ⟨rfl, rfl⟩, .nil, rfl⟩
        · rintro ⟨names, ⟨_, rfl⟩, _, rfl⟩
          rfl
      · simp [missing]

theorem pairwise_bytesOf_iff {segments : List (String × String)} :
    (segments.Pairwise fun first second => ¬ Text.bytesOf second.1 < Text.bytesOf first.1) ↔
      (segments.map Prod.fst).Pairwise (· ≤ ·) := by
  simp only [List.pairwise_map, bytesOf_lt_iff, String.not_lt]

/-- A journal is replayed to the records of the texts that its directory contains. -/
theorem replay_eq_ok_iff {volume : Volume} {directory : Path} {records : List JournalRecord} :
    replay volume directory = .ok records ↔
      ∃ segments, Contents volume directory segments ∧ recordsInAll segments = records := by
  rw [replay, bind_eq_ok_iff]
  constructor
  · rintro ⟨found, listed, read⟩
    rcases segmentsIn_eq_ok_iff.mp listed with ⟨names, lists, sorted, rfl⟩
    rcases recordsOf_map_eq_ok_iff.mp read with ⟨segments, rfl, texts, rfl⟩
    exact ⟨segments, ⟨lists, pairwise_bytesOf_iff.mpr sorted, texts⟩, rfl⟩
  · rintro ⟨segments, ⟨lists, ordered, texts⟩, rfl⟩
    have sorted := pairwise_bytesOf_iff.mp ordered
    exact ⟨_, segmentsIn_eq_ok_iff.mpr ⟨_, lists, sorted, rfl⟩,
      recordsOf_map_eq_ok_iff.mpr ⟨segments, rfl, texts, rfl⟩⟩

section Contained

variable {volume : Volume} {directory : Path} {entries : List (String × Volume)}
  {name text : String} {front rest segments others : List (String × String)}

/-! ## Segments in the order of their names -/

/-- The names of segments ascend strictly around one of them. -/
theorem lt_and_lt_of_ordered
    (ordered : (front ++ (name, text) :: rest).Pairwise fun first second =>
      ¬ Text.bytesOf second.1 < Text.bytesOf first.1)
    (distinct : ((front ++ (name, text) :: rest).map Prod.fst).Nodup) :
    (∀ segment ∈ front, segment.1 < name) ∧ ∀ segment ∈ rest, name < segment.1 := by
  have ascending := pairwise_lt_of_nodup (pairwise_bytesOf_iff.mp ordered) distinct
  rw [List.map_append, List.map_cons, List.pairwise_append, List.pairwise_cons] at ascending
  rcases ascending with ⟨_, ⟨above, _⟩, below⟩
  constructor
  · intro segment member
    exact below _ (List.mem_map_of_mem member) _ List.mem_cons_self
  · intro segment member
    exact above _ (List.mem_map_of_mem member)

theorem names_insert_perm (front rest : List (String × String)) (name text : String) :
    ((front ++ (name, text) :: rest).map Prod.fst).Perm (name :: (front ++ rest).map Prod.fst) :=
  List.perm_middle.map Prod.fst

/-- A segment has its place among others that are in order. -/
theorem exists_place (ordered : (segments.map Prod.fst).Pairwise (· ≤ ·)) (name text : String) :
    ∃ front rest, segments = front ++ rest ∧
      ((front ++ (name, text) :: rest).map Prod.fst).Pairwise (· ≤ ·) := by
  induction segments with
  | nil => exact ⟨[], [], rfl, List.pairwise_singleton _ _⟩
  | cons segment others ih =>
      rw [List.map_cons, List.pairwise_cons] at ordered
      by_cases below : segment.1 < name
      · rcases ih ordered.2 with ⟨front, rest, rfl, sorted⟩
        refine ⟨segment :: front, rest, rfl, List.pairwise_cons.mpr ⟨?_, sorted⟩⟩
        intro later member
        rcases List.mem_cons.mp ((names_insert_perm front rest name text).mem_iff.mp member) with
          rfl | old
        · exact String.not_lt.mp (String.lt_asymm below)
        · exact ordered.1 later old
      · have above := String.not_lt.mp below
        refine ⟨[], segment :: others, rfl, List.pairwise_cons.mpr ⟨?_, ?_⟩⟩
        · rw [List.map_cons, List.forall_mem_cons]
          exact ⟨above, fun later member => String.le_trans above (ordered.1 later member)⟩
        · exact List.pairwise_cons.mpr ordered

/-! ## The segments of a directory -/

theorem lists_iff (listed : volume.listDirectory directory = .ok entries) {names : List String} :
    Lists volume directory names ↔ names.Perm ((Fields.names entries).filter (IsLog ·)) := by
  rw [Lists, listed]
  rfl

/-- The files of a journal have names of segments. -/
theorem Contents.isLog (contents : Contents volume directory segments)
    (listed : volume.listDirectory directory = .ok entries) {segment : String × String}
    (member : segment ∈ segments) : IsLog segment.1 := by
  have among := ((lists_iff listed).mp contents.names).mem_iff.mp (List.mem_map_of_mem member)
  simpa using (List.mem_filter.mp among).2

/-- The segments of a directory have distinct names if its entries have. -/
theorem Contents.distinct (contents : Contents volume directory segments)
    (listed : volume.listDirectory directory = .ok entries) (nodup : (Fields.names entries).Nodup) :
    (segments.map Prod.fst).Nodup :=
  ((lists_iff listed).mp contents.names).nodup_iff.mpr (nodup.filter _)

theorem Lists.perm {names others : List String} (lists : Lists volume directory names)
    (listsToo : Lists volume directory others) : names.Perm others := by
  rw [Lists] at lists listsToo
  cases listed : volume.listDirectory directory with
  | ok entries =>
      rw [listed] at lists listsToo
      exact lists.trans listsToo.symm
  | error error =>
      rw [listed] at lists listsToo
      rw [lists.2, listsToo.2]

/-- Names and texts of segments are found in one way only. -/
theorem Contents.unique (contents : Contents volume directory segments)
    (contentsToo : Contents volume directory others) : segments = others := by
  have names : segments.map Prod.fst = others.map Prod.fst :=
    eq_of_perm_of_sorted (contents.names.perm contentsToo.names)
      (pairwise_bytesOf_iff.mp contents.ordered) (pairwise_bytesOf_iff.mp contentsToo.ordered)
  let found (segment : String × String) : String × Segment := (segment.1, .ok segment.2.toUTF8)
  have read {segments : List (String × String)} (contents : Contents volume directory segments) :
      segments.map found = (segments.map Prod.fst).map fun name =>
        (name, volume.readFile (directory.join name)) := by
    rw [List.map_map]
    apply List.map_congr_left
    intro segment member
    exact congrArg (Prod.mk segment.1) (contents.texts segment member).symm
  have injective : Function.Injective found := by
    rintro ⟨name, text⟩ ⟨other, otherText⟩ same
    simp only [found, Prod.mk.injEq, Except.ok.injEq] at same
    rw [Prod.mk.injEq]
    exact ⟨same.1, String.toByteArray_inj.mp same.2⟩
  apply List.map_injective_iff.mpr injective
  rw [read contents, read contentsToo, names]

end Contained

end Folio.Journal
