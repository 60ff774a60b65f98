import Folio.Proofs.Durable.Chronicle
import Folio.Proofs.Durable.Latest
import Folio.Proofs.Journal.Shelf

/-!
# What is recovered from a journal

A journal is recovered if the store that it is replayed to cannot be told apart from the
store that wrote it.  That depends on the last record of each key: it has to be read
back, as it was unless it is a tombstone, and no older record of the key that is read
back may stand in a segment with a later name.
-/

namespace Folio

open JournalRecord

/-! ## What records are replayed to -/

namespace DurableStore

/-- Whether a record carries its key in its document. -/
def Carries (entry : JournalRecord) : Prop :=
  entry.document.stringMember? idMember = some entry.key

theorem Carries.ne_of_ne {entry : JournalRecord} (carries : Carries entry) {key : String}
    (different : entry.key ≠ key) : entry.document.stringMember? idMember ≠ some key := by
  rw [Carries] at carries
  simpa [carries] using different

theorem current?_ofRecords_eq_none {entries : List JournalRecord}
    (carried : ∀ entry ∈ entries, Carries entry) {key : String}
    (absent : ∀ entry ∈ entries, entry.key ≠ key) : (ofRecords entries).current? key = none := by
  rw [current?_ofRecords_eq_latest?, latest?_eq_none_iff]
  intro entry member
  exact (carried entry member).ne_of_ne (absent entry member)

theorem current?_ofRecords {front rest : List JournalRecord} {entry : JournalRecord}
    (carried : ∀ other ∈ front ++ entry :: rest, Carries other)
    (last : ∀ later ∈ rest, later.key ≠ entry.key) :
    (ofRecords (front ++ entry :: rest)).current? entry.key = some entry.document := by
  rw [List.forall_mem_append, List.forall_mem_cons] at carried
  rcases carried with ⟨_, here, behind⟩
  rw [current?_ofRecords_eq_latest?]
  exact latest?_of_last here fun later member => (behind later member).ne_of_ne (last later member)

/-- If the records of a key from some place on have sequence numbers below a bound, so has
what they are replayed to. -/
theorem sequenceAt_ofRecords_lt {records before behind : List JournalRecord} {key : String}
    {bound : Nat} (carried : ∀ entry ∈ records, Carries entry) (split : records = before ++ behind)
    (lower : ∀ read ∈ behind, read.key = key → read.document.sequence < bound)
    (reached : before = [] ∨ ∃ read ∈ behind, read.key = key) (positive : 0 < bound) :
    (ofRecords records).sequenceAt key < bound := by
  rcases Journal.exists_last JournalRecord.key behind key with absent | present
  · rcases reached with rfl | ⟨read, member, same⟩
    · rw [split, List.nil_append] at carried ⊢
      rw [Store.sequenceAt, current?_ofRecords_eq_none carried absent]
      exact positive
    · exact absurd same (absent read member)
  · rcases present with ⟨first, read, others, cut, same, later⟩
    have member : read ∈ behind := by
      rw [cut]
      exact List.mem_append_right _ List.mem_cons_self
    rw [split, cut, ← List.append_assoc] at carried ⊢
    have current := current?_ofRecords carried (same ▸ later)
    rw [same] at current
    rw [Store.sequenceAt, current]
    exact lower read member same

end DurableStore

namespace Journal

/-! ## Recoverable logs -/

/-- Whether nothing is lost when the journal with a log is replayed. -/
def Recoverable (log : Log) : Prop :=
  ∀ front entry rest, IsLast log front entry rest →
    Legible entry.2.document ∧
    (entry.2.document.isDeleted = false → Restorable entry.2.document) ∧
    ∀ earlier ∈ front, earlier.2.key = entry.2.key → Legible earlier.2.document →
      ¬ entry.1 < earlier.1

/-! ## Replaying a log -/

section Replay

variable {log front rest : Log} {entry : String × JournalRecord} {names : List String}
  {store : Store}

theorem mem_replayed {read : JournalRecord} :
    read ∈ replayed log names ↔
      ∃ entry ∈ log, entry.1 ∈ names ∧ reread? entry.2 = some read := by
  simp only [replayed, List.mem_flatMap, List.mem_filterMap, (ascending_perm names).mem_iff,
    mem_under]
  constructor
  · rintro ⟨name, opened, record, member, reread⟩
    exact ⟨(name, record), member, opened, reread⟩
  · rintro ⟨⟨name, record⟩, member, opened, reread⟩
    exact ⟨name, opened, record, member, reread⟩

/-- What is read back carries its key. -/
theorem Chronicle.carries (chronicle : Chronicle log store) (names : List String) :
    ∀ read ∈ replayed log names, DurableStore.Carries read := by
  intro read member
  rcases mem_replayed.mp member with ⟨entry, inside, _, reread⟩
  rcases (chronicle.stored entry inside).kept reread with ⟨key, carries, _⟩
  rw [DurableStore.Carries, carries, key]

/-- The records behind a segment are those of segments with later names. -/
theorem replayed_split (log : Log) (distinct : names.Nodup) {name : String}
    (opened : name ∈ names) :
    ∃ before behind : List JournalRecord,
      replayed log names = before ++ (under log name).filterMap reread? ++ behind ∧
      ∀ read, read ∈ behind ↔
        ∃ entry ∈ log, entry.1 ∈ names ∧ name < entry.1 ∧ reread? entry.2 = some read := by
  rcases ascending_split distinct opened with ⟨front, rest, split, later⟩
  refine ⟨front.flatMap fun name => (under log name).filterMap reread?,
    rest.flatMap fun name => (under log name).filterMap reread?, ?_, fun read => ?_⟩
  · rw [replayed, split, List.flatMap_append, List.flatMap_cons, List.append_assoc]
  · simp only [List.mem_flatMap, List.mem_filterMap, mem_under, later]
    constructor
    · rintro ⟨name, ⟨opened, above⟩, record, member, reread⟩
      exact ⟨(name, record), member, opened, above, reread⟩
    · rintro ⟨⟨name, record⟩, member, opened, above, reread⟩
      exact ⟨name, ⟨opened, above⟩, record, member, reread⟩

theorem Chronicle.key_ne_of_rest (chronicle : Chronicle log store)
    (isLast : IsLast log front entry rest) {name : String} {later : JournalRecord}
    (behind : later ∈ (under rest name).filterMap reread?) : later.key ≠ entry.2.key := by
  rcases List.mem_filterMap.mp behind with ⟨record, member, reread⟩
  have written := mem_under.mp member
  have inside : (name, record) ∈ log := by
    rw [isLast.split]
    exact List.mem_append_right _ (List.mem_cons_of_mem _ written)
  rw [((chronicle.stored _ inside).kept reread).1]
  exact isLast.last _ written

/-- If no older record of a key stands in a segment with a later name than the last one,
nothing is read back from there under the key. -/
theorem Chronicle.key_ne_of_above (chronicle : Chronicle log store)
    (isLast : IsLast log front entry rest)
    (latest : ∀ earlier ∈ front, earlier.2.key = entry.2.key → Legible earlier.2.document →
      ¬ entry.1 < earlier.1)
    {other : String × JournalRecord} (written : other ∈ log) (above : entry.1 < other.1)
    {later : JournalRecord} (reread : reread? other.2 = some later) :
    later.key ≠ entry.2.key := by
  have stored := chronicle.stored other written
  rw [(stored.kept reread).1]
  intro same
  rcases isLast.old_or_eq written same with old | rfl
  · have legible := stored.reread?_isSome_iff.mp (Option.isSome_of_eq_some reread)
    exact latest other old same legible above
  · exact String.lt_irrefl _ above

/-- If the last record of a key is read back and no older one stands in a segment with a
later name, the key is replayed to what that record is read as. -/
theorem current?_of_isLast (chronicle : Chronicle log store) (distinct : names.Nodup)
    (filed : ∀ entry ∈ log, entry.1 ∈ names) (isLast : IsLast log front entry rest)
    {read : JournalRecord} (reread : reread? entry.2 = some read)
    (latest : ∀ earlier ∈ front, earlier.2.key = entry.2.key → Legible earlier.2.document →
      ¬ entry.1 < earlier.1) :
    (DurableStore.ofRecords (replayed log names)).current? entry.2.key = some read.document := by
  obtain ⟨before, behind, split, mem_behind⟩ :=
    replayed_split log distinct (filed entry isLast.mem)
  have segment : (under log entry.1).filterMap reread? =
      (under front entry.1).filterMap reread? ++
        read :: (under rest entry.1).filterMap reread? := by
    have self : under (entry :: rest) entry.1 = entry.2 :: under rest entry.1 := by
      simp [under]
    rw [isLast.split, under_append, self, List.filterMap_append, List.filterMap_cons, reread]
  have whole : replayed log names = before ++ (under front entry.1).filterMap reread? ++
      read :: ((under rest entry.1).filterMap reread? ++ behind) := by
    rw [split, segment]
    simp
  have key : read.key = entry.2.key := ((chronicle.stored entry isLast.mem).kept reread).1
  -- What is replayed later stands behind the record in its segment, or in a later segment.
  have last : ∀ later ∈ (under rest entry.1).filterMap reread? ++ behind, later.key ≠ read.key := by
    rw [key, List.forall_mem_append]
    refine ⟨fun later => chronicle.key_ne_of_rest isLast, fun later member => ?_⟩
    rcases (mem_behind later).mp member with ⟨other, written, _, above, reread⟩
    exact chronicle.key_ne_of_above isLast latest written above reread
  have carries := chronicle.carries names
  rw [whole] at carries ⊢
  rw [← key]
  exact DurableStore.current?_ofRecords carries last

/-- A record that is read back, and is not the last one of its key, has a smaller sequence
number than that. -/
theorem Chronicle.lt_of_reread (chronicle : Chronicle log store)
    (isLast : IsLast log front entry rest) {other : String × JournalRecord} (written : other ∈ log)
    {read : JournalRecord} (reread : reread? other.2 = some read)
    (key : read.key = entry.2.key) (different : other ≠ entry) :
    read.document.sequence < entry.2.document.sequence := by
  rcases (chronicle.stored other written).kept reread with ⟨sameKey, _, _, sequence⟩
  have same := sameKey.symm.trans key
  rw [sequence]
  rcases isLast.old_or_eq written same with old | self
  · exact chronicle.lt_of_old isLast old same
  · exact absurd self different

/-- If the last record of a key is not read back, or an older one stands in a segment with
a later name, the key is replayed to an older record or to none. -/
theorem sequenceAt_lt_of_lost (chronicle : Chronicle log store) (distinct : names.Nodup)
    (filed : ∀ entry ∈ log, entry.1 ∈ names) (isLast : IsLast log front entry rest)
    (lost : reread? entry.2 = none ∨ ∃ earlier ∈ front, earlier.2.key = entry.2.key ∧
      Legible earlier.2.document ∧ entry.1 < earlier.1) :
    (DurableStore.ofRecords (replayed log names)).sequenceAt entry.2.key <
      entry.2.document.sequence := by
  have positive := (chronicle.bounded entry isLast.mem).1
  have carries := chronicle.carries names
  rcases lost with unread | ⟨earlier, old, same, legible, above⟩
  · refine DurableStore.sequenceAt_ofRecords_lt carries (List.nil_append _).symm ?_ (.inl rfl)
      positive
    intro read member key
    rcases mem_replayed.mp member with ⟨other, written, _, reread⟩
    apply chronicle.lt_of_reread isLast written reread key
    rintro rfl
    rw [unread] at reread
    contradiction
  · -- From the segments with later names on, the last record does not occur any more.
    obtain ⟨before, behind, split, mem_behind⟩ :=
      replayed_split log distinct (filed entry isLast.mem)
    refine DurableStore.sequenceAt_ofRecords_lt carries split ?_ (.inr ?_) positive
    · intro read member key
      rcases (mem_behind read).mp member with ⟨other, written, _, above, reread⟩
      apply chronicle.lt_of_reread isLast written reread key
      rintro rfl
      exact String.lt_irrefl _ above
    · have written := isLast.mem_of_old old
      have stored := chronicle.stored earlier written
      rcases Option.isSome_iff_exists.mp (stored.reread?_isSome_iff.mpr legible) with ⟨read, reread⟩
      have member := (mem_behind read).mpr ⟨earlier, written, filed earlier written, above, reread⟩
      exact ⟨read, member, (stored.kept reread).1.trans same⟩

/-- A log is recoverable if the store that it is replayed to cannot be told apart from the
one that wrote it. -/
theorem recoverable_of_alike (chronicle : Chronicle log store) (distinct : names.Nodup)
    (filed : ∀ entry ∈ log, entry.1 ∈ names)
    (alike : Store.Alike (DurableStore.ofRecords (replayed log names)) store) :
    Recoverable log := by
  intro front entry rest isLast
  have stored := chronicle.stored entry isLast.mem
  have current := chronicle.current front entry rest isLast
  have found : ¬ (reread? entry.2 = none ∨ ∃ earlier ∈ front, earlier.2.key = entry.2.key ∧
      Legible earlier.2.document ∧ entry.1 < earlier.1) := by
    intro lost
    apply Nat.ne_of_lt (sequenceAt_lt_of_lost chronicle distinct filed isLast lost)
    rw [alike.sequence, Store.sequenceAt, current]
    rfl
  rw [not_or] at found
  rcases Option.ne_none_iff_exists'.mp found.1 with ⟨read, reread⟩
  have latest : ∀ earlier ∈ front, earlier.2.key = entry.2.key → Legible earlier.2.document →
      ¬ entry.1 < earlier.1 := by
    intro earlier member same legible above
    exact found.2 ⟨earlier, member, same, legible, above⟩
  refine ⟨stored.reread?_isSome_iff.mp (by rw [reread]; rfl), ?_, latest⟩
  intro alive
  have recovered := current?_of_isLast chronicle distinct filed isLast reread latest
  have deleted := (stored.kept reread).2.2.1
  have live := alike.live entry.2.key
  rw [Store.live?_eq_some_iff.mpr ⟨recovered, deleted.trans alive⟩,
    Store.live?_eq_some_iff.mpr ⟨current, alive⟩, Option.some.injEq] at live
  exact (stored.document_eq_iff reread).mp live

/-- The store that a recoverable log is replayed to agrees on every key with the one that
wrote it. -/
theorem agrees_of_recoverable (chronicle : Chronicle log store) (distinct : names.Nodup)
    (filed : ∀ entry ∈ log, entry.1 ∈ names) (recoverable : Recoverable log) (key : String) :
    (DurableStore.ofRecords (replayed log names)).live? key = store.live? key ∧
      (DurableStore.ofRecords (replayed log names)).sequenceAt key = store.sequenceAt key := by
  rcases exists_isLast log key with absent | ⟨front, entry, rest, isLast, rfl⟩
  · have nowhere : ∀ read ∈ replayed log names, read.key ≠ key := by
      intro read member
      rcases mem_replayed.mp member with ⟨entry, written, _, reread⟩
      rw [((chronicle.stored entry written).kept reread).1]
      exact absent entry written
    simp only [Store.live?, Store.sequenceAt, chronicle.absent key absent,
      DurableStore.current?_ofRecords_eq_none (chronicle.carries names) nowhere, and_self]
  · have stored := chronicle.stored entry isLast.mem
    rcases recoverable front entry rest isLast with ⟨legible, restorable, latest⟩
    rcases Option.isSome_iff_exists.mp (stored.reread?_isSome_iff.mpr legible) with ⟨read, reread⟩
    rcases stored.kept reread with ⟨_, _, deleted, sequence⟩
    have recovered := current?_of_isLast chronicle distinct filed isLast reread latest
    have current := chronicle.current front entry rest isLast
    simp only [Store.live?, Store.sequenceAt, recovered, current]
    constructor
    · cases mark : entry.2.document.isDeleted with
      | true =>
          rw [Option.filter_some, Option.filter_some, deleted, mark]
          rfl
      | false => rw [(stored.document_eq_iff reread).mpr (restorable mark)]
    · rw [Option.map_some, Option.map_some, sequence]

/-- The store that a log is replayed to cannot be told apart from the one that wrote it
exactly when the log is recoverable. -/
theorem alike_ofRecords_iff (chronicle : Chronicle log store) (distinct : names.Nodup)
    (filed : ∀ entry ∈ log, entry.1 ∈ names) :
    Store.Alike (DurableStore.ofRecords (replayed log names)) store ↔ Recoverable log := by
  constructor
  · exact recoverable_of_alike chronicle distinct filed
  · intro recoverable
    have agrees := agrees_of_recoverable chronicle distinct filed recoverable
    exact ⟨fun key => (agrees key).1, fun key => (agrees key).2⟩

end Replay

end Journal

end Folio
