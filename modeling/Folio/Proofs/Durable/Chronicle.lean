import Folio.Proofs.Journal.Segments
import Folio.Proofs.Store.Alike

/-!
# The log of a store

Every write of a store makes a record, whose document carries the key and a sequence
number above those of all older records of the key.  The log of these records tells what
stands under each key: the document of its last record.
-/

namespace Folio

open JournalRecord

/-! ## What becomes of a record -/

/-- Whether a record is one that the store writes: its document carries its key. -/
def Stored (entry : JournalRecord) : Prop :=
  ∃ members, entry.document = .object members ∧ Composed members ∧
    Fields.get? members idMember = some (.string entry.key)

section Stored

variable {entry read : JournalRecord}

/-- A record is read back exactly when its document is legible. -/
theorem Stored.reread?_isSome_iff (stored : Stored entry) :
    (Journal.reread? entry).isSome ↔ Legible entry.document := by
  rcases stored with ⟨members, shape, composed, _⟩
  rcases entry with ⟨key, document⟩
  cases shape
  rw [Journal.reread?, read?_line key composed, Option.isSome_map, recovered?_isSome_iff]

/-- A record that is read back keeps its key and all that is known of a tombstone. -/
theorem Stored.kept (stored : Stored entry) (reread : Journal.reread? entry = some read) :
    read.key = entry.key ∧ read.document.stringMember? idMember = some entry.key ∧
      read.document.isDeleted = entry.document.isDeleted ∧
      read.document.sequence = entry.document.sequence := by
  rcases stored with ⟨members, shape, composed, carries⟩
  rcases entry with ⟨key, document⟩
  cases shape
  rw [Journal.reread?, read?_line key composed, Option.map_eq_some_iff] at reread
  rcases reread with ⟨document, recalled, rfl⟩
  rw [recovered?] at recalled
  split at recalled
  · contradiction
  · have strings (name : String) := (Json.member?_of_reread? recalled name).1
    have truths (name : String) := (Json.member?_of_reread? recalled name).2
    refine ⟨rfl, ?_, ?_, ?_⟩
    · rw [Json.stringMember?, strings, carries]
      rfl
    · rw [Json.isDeleted, truths]
      rfl
    · simp only [Json.sequence, Json.stringMember?, strings]
      rfl

/-- A record that is read back keeps its document exactly when that is restorable. -/
theorem Stored.document_eq_iff (stored : Stored entry)
    (reread : Journal.reread? entry = some read) :
    read.document = entry.document ↔ Restorable entry.document := by
  rcases stored with ⟨members, shape, composed, _⟩
  rcases entry with ⟨key, document⟩
  cases shape
  rw [Journal.reread?, read?_line key composed, Option.map_eq_some_iff] at reread
  rcases reread with ⟨document, recalled, rfl⟩
  rw [← recovered?_eq_self_iff, recalled, Option.some.injEq]

end Stored

/-- What the store writes is a record of its own. -/
theorem stored_revised (sequence : Nat) {members : List (String × Json)}
    (plain : Json.Plain (.object members)) (key : String) :
    Stored ⟨key, (Store.revised sequence members key).document⟩ := by
  rw [Json.Plain, Json.plainMembers_iff] at plain
  rcases plain with ⟨distinct, _, plain⟩
  have keyed := Store.key_revised sequence members key
  have numbered := Store.revision_revised sequence members key
  refine ⟨_, rfl, ⟨?_, ?_, ?_⟩, keyed⟩
  · exact Fields.nodup_names_put (Fields.nodup_names_put
      (Fields.nodup_names_erase distinct revisionMember).2 _ _) _ _
  · intro entry member
    rcases Fields.mem_of_mem_put member with rfl | member
    · trivial
    rcases Fields.mem_of_mem_put member with rfl | member
    · trivial
    · exact plain entry (Fields.mem_of_mem_erase member)
  · -- The key and the revision are two members.
    have first : Fields.has _ idMember = true := Option.isSome_of_eq_some keyed
    have second : Fields.has _ revisionMember = true := Option.isSome_of_eq_some numbered
    exact Fields.two_le_length first second (by decide)

/-! ## The last record of a key -/

namespace Journal

/-- Whether an entry of a log is the last one of its key, with what was written before
and after it. -/
structure IsLast (log front : Log) (entry : String × JournalRecord) (rest : Log) : Prop where
  split : log = front ++ entry :: rest
  last : ∀ later ∈ rest, later.2.key ≠ entry.2.key

section IsLast

variable {log front rest : Log} {entry other : String × JournalRecord}

theorem IsLast.mem (isLast : IsLast log front entry rest) : entry ∈ log := by
  rw [isLast.split]
  exact List.mem_append_right _ List.mem_cons_self

theorem IsLast.mem_of_old (isLast : IsLast log front entry rest) (old : other ∈ front) :
    other ∈ log := by
  rw [isLast.split]
  exact List.mem_append_left _ old

/-- Every entry of the key is an older one, or the last one itself. -/
theorem IsLast.old_or_eq (isLast : IsLast log front entry rest) (member : other ∈ log)
    (same : other.2.key = entry.2.key) : other ∈ front ∨ other = entry := by
  rw [isLast.split, List.mem_append, List.mem_cons] at member
  rcases member with old | self | new
  · exact .inl old
  · exact .inr self
  · exact absurd same (isLast.last other new)

/-- The last entry of a key is the one that was added, or it was the last one before and
the one that was added is of another key. -/
theorem isLast_concat_cases (isLast : IsLast (log ++ [other]) front entry rest) :
    entry = other ∨ ∃ before, IsLast log front entry before ∧ other.2.key ≠ entry.2.key := by
  have split := isLast.split
  rcases List.eq_nil_or_concat rest with rfl | ⟨before, last, rfl⟩
  · rcases List.append_inj' split rfl with ⟨_, same⟩
    exact .inl (List.cons.inj same).1.symm
  · rw [List.concat_eq_append, ← List.cons_append, ← List.append_assoc] at split
    rcases List.append_inj' split rfl with ⟨earlier, same⟩
    cases same
    refine .inr ⟨before, ⟨earlier, fun later member => ?_⟩, ?_⟩
    · exact isLast.last later (by simp [member])
    · exact isLast.last other (by simp)

end IsLast

/-- A list has a last element for a key or none. -/
theorem exists_last {α : Type} (keyOf : α → String) (elements : List α) (key : String) :
    (∀ element ∈ elements, keyOf element ≠ key) ∨
      ∃ front element rest, elements = front ++ element :: rest ∧ keyOf element = key ∧
        ∀ later ∈ rest, keyOf later ≠ key := by
  induction elements with
  | nil => exact .inl (by simp)
  | cons element rest ih =>
      rcases ih with absent | ⟨front, last, behind, split, same, later⟩
      · by_cases here : keyOf element = key
        · exact .inr ⟨[], element, rest, rfl, here, absent⟩
        · exact .inl (List.forall_mem_cons.mpr ⟨here, absent⟩)
      · exact .inr ⟨element :: front, last, behind, by rw [split, List.cons_append], same, later⟩

/-- A key has a last entry or none. -/
theorem exists_isLast (log : Log) (key : String) :
    (∀ entry ∈ log, entry.2.key ≠ key) ∨
      ∃ front entry rest, IsLast log front entry rest ∧ entry.2.key = key := by
  rcases exists_last (fun entry => entry.2.key) log key with absent | present
  · exact .inl absent
  · rcases present with ⟨front, entry, rest, split, same, later⟩
    exact .inr ⟨front, entry, rest, ⟨split, same ▸ later⟩, same⟩

/-- A log and the store that wrote it. -/
structure Chronicle (log : Log) (store : Store) : Prop where
  stored : ∀ entry ∈ log, Stored entry.2
  current : ∀ front entry rest, IsLast log front entry rest →
    store.current? entry.2.key = some entry.2.document
  absent : ∀ key, (∀ entry ∈ log, entry.2.key ≠ key) → store.current? key = none
  ascending : log.Pairwise fun earlier later => earlier.2.key = later.2.key →
    earlier.2.document.sequence < later.2.document.sequence
  bounded : ∀ entry ∈ log,
    0 < entry.2.document.sequence ∧ entry.2.document.sequence ≤ log.length

/-! ## Writing a record -/

section Chronicle

variable {log : Log} {store : Store}

theorem Chronicle.lt_of_old (chronicle : Chronicle log store) {front rest : Log}
    {entry earlier : String × JournalRecord} (isLast : IsLast log front entry rest)
    (old : earlier ∈ front) (same : earlier.2.key = entry.2.key) :
    earlier.2.document.sequence < entry.2.document.sequence := by
  have ascending := chronicle.ascending
  rw [isLast.split, List.pairwise_append] at ascending
  exact ascending.2.2 earlier old entry List.mem_cons_self same

theorem Chronicle.sequence_le (chronicle : Chronicle log store) {entry : String × JournalRecord}
    (member : entry ∈ log) : entry.2.document.sequence ≤ store.sequenceAt entry.2.key := by
  rcases exists_isLast log entry.2.key with absent | ⟨front, last, rest, isLast, same⟩
  · exact absurd rfl (absent entry member)
  · have current := chronicle.current front last rest isLast
    rw [same] at current
    rw [Store.sequenceAt, current, Option.map_some, Option.getD_some]
    rcases isLast.old_or_eq member same.symm with old | rfl
    · exact Nat.le_of_lt (chronicle.lt_of_old isLast old same.symm)
    · exact Nat.le_refl _

theorem Chronicle.sequenceAt_le (chronicle : Chronicle log store) (key : String) :
    store.sequenceAt key ≤ log.length := by
  rcases exists_isLast log key with absent | ⟨front, last, rest, isLast, rfl⟩
  · rw [Store.sequenceAt, chronicle.absent key absent]
    exact Nat.zero_le _
  · rw [Store.sequenceAt, chronicle.current front last rest isLast]
    exact (chronicle.bounded last isLast.mem).2

theorem chronicle_empty : Chronicle [] Store.empty where
  stored := by simp
  current front entry rest isLast := by
    have split := isLast.split
    simp at split
  absent _ _ := rfl
  ascending := List.Pairwise.nil
  bounded := by simp

/-- A record with the number that follows the one under its key goes on with the chronicle. -/
theorem Chronicle.concat (chronicle : Chronicle log store) {entry : String × JournalRecord}
    (stored : Stored entry.2)
    (next : entry.2.document.sequence = store.sequenceAt entry.2.key + 1) :
    Chronicle (log ++ [entry]) (store.place entry.2.key entry.2.document) := by
  refine ⟨?stored, ?current, ?absent, ?ascending, ?bounded⟩
  case stored =>
    rw [List.forall_mem_append, List.forall_mem_singleton]
    exact ⟨chronicle.stored, stored⟩
  case current =>
    intro front last rest isLast
    rcases isLast_concat_cases isLast with rfl | ⟨before, earlier, different⟩
    · exact Store.current?_place_self _ _ _
    · rw [Store.current?_place_of_ne (Ne.symm different)]
      exact chronicle.current front last before earlier
  case absent =>
    intro other absent
    rw [List.forall_mem_append, List.forall_mem_singleton] at absent
    rw [Store.current?_place_of_ne (Ne.symm absent.2)]
    exact chronicle.absent other absent.1
  case ascending =>
    rw [List.pairwise_append]
    refine ⟨chronicle.ascending, List.pairwise_singleton _ _, ?_⟩
    intro earlier old last here same
    rw [List.mem_singleton.mp here] at same ⊢
    -- The store knows the numbers of all older records of the key, and goes one further.
    have below := chronicle.sequence_le old
    rw [same] at below
    rw [next]
    exact Nat.lt_succ_of_le below
  case bounded =>
    have known := chronicle.sequenceAt_le entry.2.key
    rw [List.forall_mem_append, List.forall_mem_singleton, List.length_append,
      List.length_singleton]
    constructor
    · intro earlier old
      have bounds := chronicle.bounded earlier old
      omega
    · omega

/-- A record that is written goes on with the chronicle. -/
theorem Chronicle.write (chronicle : Chronicle log store) (room : log.length < maxSequence)
    {document : Json} (plain : document.Plain) {key : String} {revision : Revision}
    (revised : store.revise document key = .ok revision) (segment : String) :
    Chronicle (log ++ [(segment, ⟨key, revision.document⟩)]) (store.keep revision) := by
  obtain ⟨members, rfl, _, rfl⟩ := Store.revise_eq_ok_iff.mp revised
  have known := chronicle.sequenceAt_le key
  exact chronicle.concat (stored_revised _ plain key)
    (Store.sequence_revised (Nat.lt_of_le_of_lt known room) members key)

end Chronicle

end Journal

end Folio
