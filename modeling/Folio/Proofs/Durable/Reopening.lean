import Folio.Proofs.Durable.Lockstep

/-!
# Reopening a durable store

A durable store that is reopened answers like a store that was never closed as long as
its journal is recoverable at every reopening, and only as long: where it is not, a
document that was stored is missing or changed, or a sequence number is forgotten.
-/

namespace Folio

open Journal

namespace DurableStore

/-! ## Runs with reopenings -/

/-- Whether a durable store that goes through some first steps and then through further
calls answers like a store that goes through the calls only. -/
def Transparent (dataDirectory : Path) (durable : DurableStore) (store : Store)
    (steps : List Step) : Prop :=
  ∀ front, front <+: steps → ∀ probe, (∀ call ∈ probe, call.Accepted) →
    run dataDirectory durable (front ++ probe.map .call) =
      .ok (store.answers (calls front ++ probe))

/-- Whether the journal is recoverable whenever steps open the store again, for a log to
start with and the store and the segment that go with it. -/
def RecoverableThroughout (log : Log) (store : Store) (segment : String) (steps : List Step) :
    Prop :=
  ∀ front later, front ++ [.reopen later] <+: steps →
    Recoverable (log ++ written store segment front)

section Steps

variable {dataDirectory : Path} {durable : DurableStore} {store : Store} {log : Log}
  {segment : String} {steps : List Step}

/-- Without steps only the stores count. -/
theorem transparent_nil :
    Transparent dataDirectory durable store [] ↔ Store.Alike durable.store store := by
  constructor
  · intro transparent
    rw [Store.alike_iff_probes]
    have probed {call : Store.Call} (accepted : call.Accepted) :
        (durable.store.call call).1 = (store.call call).1 := by
      have one := transparent [] List.nil_prefix [call] (by simpa using accepted)
      rw [List.nil_append, run_calls dataDirectory (Store.Alike.refl durable.store)] at one
      exact (List.cons.inj (Except.ok.inj one)).1
    intro key
    exact ⟨probed trivial, probed ⟨"\x7b\x7d", rfl⟩⟩
  · intro alike front front_isPrefix probe _
    rw [List.prefix_nil.mp front_isPrefix]
    exact run_calls dataDirectory alike probe

/-- The stores are alike when a run starts that is transparent. -/
theorem Transparent.alike (transparent : Transparent dataDirectory durable store steps) :
    Store.Alike durable.store store := by
  refine transparent_nil.mp fun front front_isPrefix => transparent front ?_
  exact front_isPrefix.trans List.nil_prefix

/-- A call that is answered alike leaves the rest of the steps to be looked at. -/
theorem transparent_call_iff {call : Store.Call} (alike : Store.Alike durable.store store)
    (same : (durable.call call).1 = (store.call call).1) :
    Transparent dataDirectory durable store (.call call :: steps) ↔
      Transparent dataDirectory (durable.call call).2 (store.call call).2 steps := by
  have answered (front : List Step) (probe : List Store.Call) :
      run dataDirectory durable (.call call :: front ++ probe.map .call) =
          .ok (store.answers (calls (.call call :: front) ++ probe)) ↔
        run dataDirectory (durable.call call).2 (front ++ probe.map .call) =
          .ok ((store.call call).2.answers (calls front ++ probe)) := by
    rw [List.cons_append, run, calls_call, List.cons_append, Store.answers, same]
    cases run dataDirectory (durable.call call).2 (front ++ probe.map .call) with
    | error error => simp [bind, Except.bind]
    | ok answers => simp [bind, Except.bind, pure, Except.pure]
  constructor
  · intro transparent front front_isPrefix probe accepted
    exact (answered front probe).mp
      (transparent _ (List.cons_prefix_cons.mpr ⟨rfl, front_isPrefix⟩) probe accepted)
  · intro transparent front front_isPrefix probe accepted
    cases front with
    | nil => exact run_calls dataDirectory alike probe
    | cons step front =>
        rcases List.cons_prefix_cons.mp front_isPrefix with ⟨rfl, inner⟩
        exact (answered front probe).mpr (transparent front inner probe accepted)

/-- After a reopening the store that was opened goes on. -/
theorem transparent_reopen_iff {later : Nat} {reopened : DurableStore}
    (alike : Store.Alike durable.store store)
    (started : start durable.volume dataDirectory later = .ok reopened) :
    Transparent dataDirectory durable store (.reopen later :: steps) ↔
      Transparent dataDirectory reopened store steps := by
  have answered (front : List Step) (probe : List Store.Call) :
      run dataDirectory durable (.reopen later :: front ++ probe.map .call) =
        run dataDirectory reopened (front ++ probe.map .call) := by
    rw [List.cons_append, run, started]
    rfl
  constructor
  · intro transparent front front_isPrefix probe accepted
    rw [← answered, transparent _ (List.cons_prefix_cons.mpr ⟨rfl, front_isPrefix⟩) probe accepted,
      calls_reopen]
  · intro transparent front front_isPrefix probe accepted
    cases front with
    | nil => exact run_calls dataDirectory alike probe
    | cons step front =>
        rcases List.cons_prefix_cons.mp front_isPrefix with ⟨rfl, inner⟩
        rw [answered, calls_reopen]
        exact transparent front inner probe accepted

theorem recoverableThroughout_nil : RecoverableThroughout log store segment [] := by
  intro front later front_isPrefix
  simp at front_isPrefix

theorem recoverableThroughout_call_iff {call : Store.Call} :
    RecoverableThroughout log store segment (.call call :: steps) ↔
      RecoverableThroughout (log ++ logged store segment call) (store.call call).2 segment
        steps := by
  constructor
  · intro recoverable front later front_isPrefix
    have whole := recoverable (.call call :: front) later
      (List.cons_prefix_cons.mpr ⟨rfl, front_isPrefix⟩)
    rwa [written, ← List.append_assoc] at whole
  · intro recoverable front later front_isPrefix
    cases front with
    | nil => simp at front_isPrefix
    | cons step front =>
        rw [List.cons_append, List.cons_prefix_cons] at front_isPrefix
        rcases front_isPrefix with ⟨rfl, front_isPrefix⟩
        rw [written, ← List.append_assoc]
        exact recoverable front later front_isPrefix

theorem recoverableThroughout_reopen_iff {now : Nat} :
    RecoverableThroughout log store segment (.reopen now :: steps) ↔
      Recoverable log ∧ RecoverableThroughout log store (segmentName now) steps := by
  constructor
  · intro recoverable
    constructor
    · have first := recoverable [] now (List.cons_prefix_cons.mpr ⟨rfl, List.nil_prefix⟩)
      rwa [written, List.append_nil] at first
    · intro front later front_isPrefix
      exact recoverable (.reopen now :: front) later
        (List.cons_prefix_cons.mpr ⟨rfl, front_isPrefix⟩)
  · rintro ⟨first, recoverable⟩ front later front_isPrefix
    cases front with
    | nil => rwa [written, List.append_nil]
    | cons step front =>
        rw [List.cons_append, List.cons_prefix_cons] at front_isPrefix
        rcases front_isPrefix with ⟨rfl, front_isPrefix⟩
        exact recoverable front later front_isPrefix

end Steps

/-- From where the two are in lockstep, steps are transparent exactly when the journal is
recoverable throughout. -/
theorem Lockstep.transparent_iff {dataDirectory : Path} {place : List String}
    {durable : DurableStore} {store : Store} {log : Log} {past : List Nat} {now : Nat}
    (lockstep : Lockstep dataDirectory place durable store log past now) {steps : List Step}
    (accepted : ∀ call ∈ calls steps, call.Accepted)
    (fits : ∀ later ∈ reopenings steps, Fits (journalIn dataDirectory) later)
    (distinct : (past ++ now :: reopenings steps).Nodup)
    (room : log.length + steps.length ≤ maxSequence) :
    Transparent dataDirectory durable store steps ↔
      RecoverableThroughout log store (segmentName now) steps := by
  -- The two stay in lockstep from step to step, up to the first reopening at which the
  -- journal is not recoverable; there they part, and nothing behind it matters.
  induction steps generalizing durable store log past now with
  | nil => exact iff_of_true (transparent_nil.mpr lockstep.alike) recoverableThroughout_nil
  | cons step rest ih =>
      rw [List.length_cons] at room
      cases step with
      | call call =>
          rw [calls_call, List.forall_mem_cons] at accepted
          rcases lockstep.call (by omega) accepted.1 with ⟨same, onward⟩
          have shorter := length_logged_le store (segmentName now) call
          rw [transparent_call_iff lockstep.alike same, recoverableThroughout_call_iff]
          exact ih onward accepted.2 fits distinct (by rw [List.length_append]; omega)
      | reopen later =>
          rw [calls_reopen] at accepted
          rw [reopenings_reopen, List.forall_mem_cons] at fits
          rw [reopenings_reopen] at distinct
          have moved : (past ++ [now] ++ later :: reopenings rest).Nodup := by
            simpa using distinct
          have new : later ∉ past ++ [now] := by
            intro member
            exact (List.nodup_append.mp moved).2.2 later member later List.mem_cons_self rfl
          rcases lockstep.reopen fits.1 new with ⟨reopened, started, _, alike_iff, onward⟩
          rw [transparent_reopen_iff lockstep.alike started, recoverableThroughout_reopen_iff]
          by_cases recoverable : Recoverable log
          · rw [ih (onward recoverable) accepted fits.2 moved (by omega)]
            exact (and_iff_right recoverable).symm
          · constructor
            · intro transparent
              exact absurd (alike_iff.mp transparent.alike) recoverable
            · rintro ⟨first, _⟩
              exact absurd first recoverable

/-- A store that is opened on an empty data directory starts in lockstep with an empty
store. -/
theorem exists_lockstep {volume : Volume} {dataDirectory : Path} {now : Nat}
    (emptyDirectory : volume.listDirectory dataDirectory = .ok [])
    (fits : Fits (journalIn dataDirectory) now) :
    ∃ durable place, start volume dataDirectory now = .ok durable ∧
      Lockstep dataDirectory place durable Store.empty [] [] now := by
  rcases exists_start emptyDirectory fits with ⟨opened, place, started, holds⟩
  exact ⟨_, place, started, Store.Alike.refl _, chronicle_empty, holds, rfl⟩

theorem recoverable_singleton {segment : String} {entry : JournalRecord}
    (legible : JournalRecord.Legible entry.document)
    (restorable : JournalRecord.Restorable entry.document) : Recoverable [(segment, entry)] := by
  intro front last rest isLast
  have split := isLast.split
  cases front with
  | nil =>
      cases split
      exact ⟨legible, fun _ => restorable, by simp⟩
  | cons first front => simp at split

theorem revise_empty (members : List (String × Json)) (key : String) :
    Store.empty.revise (.object members) key = .ok (Store.revised 0 members key) := by
  have accepted : Store.empty.accepts key (Fields.get? members revisionMember) = true :=
    Store.accepts_of_live?_eq_none rfl _
  exact Store.revise_eq_ok_iff.mpr ⟨members, rfl, accepted, rfl⟩

theorem fits_data {now : Nat} (small : now = 1 ∨ now = 2) :
    Fits (journalIn ⟨[], ["data"]⟩) now := by
  rcases small with rfl | rfl <;> exact ⟨by decide +kernel, by decide +kernel⟩

/-- A durable store that is opened on an empty data directory and reopened any number of
times at later and later times answers like a store in memory, whatever is asked of it,
exactly when its journal is recoverable at every reopening: the last record of each key
is read back, as it was unless it is a tombstone, and no older record of the key stands
in a segment with a later name. -/
theorem session_transparent_iff {volume : Volume} {dataDirectory : Path} {now : Nat}
    {steps : List Step} (emptyDirectory : volume.listDirectory dataDirectory = .ok [])
    (later : (now :: reopenings steps).Pairwise (· < ·))
    (fits : ∀ time ∈ now :: reopenings steps, Fits (journalIn dataDirectory) time)
    (accepted : ∀ call ∈ calls steps, call.Accepted) (bound : steps.length ≤ maxSequence) :
    (∀ front, front <+: steps → ∀ probe, (∀ call ∈ probe, call.Accepted) →
      session volume dataDirectory now (front ++ probe.map .call) =
        .ok (Store.empty.answers (calls front ++ probe))) ↔
    ∀ front time, front ++ [.reopen time] <+: steps →
      Recoverable (written Store.empty (segmentName now) front) := by
  rw [List.forall_mem_cons] at fits
  rcases exists_lockstep emptyDirectory fits.1 with ⟨durable, place, started, lockstep⟩
  have opened (steps : List Step) : session volume dataDirectory now steps =
      run dataDirectory durable steps := by
    rw [session, started]
    rfl
  simp only [opened]
  exact lockstep.transparent_iff accepted fits.2 (later.imp Nat.ne_of_lt) (by simpa using bound)

/-- An empty document is found again after the store was reopened. -/
theorem session_reopened_once :
    session (.directory [("data", .directory [])]) ⟨[], ["data"]⟩ 1
        [.call (.insert (.object []) "k"), .reopen 2, .call (.get "k")] =
      .ok (Store.empty.answers [.insert (.object []) "k", .get "k"]) := by
  obtain ⟨revision, document⟩ : ∃ revision, (Store.revised 0 [] "k").document =
      .object [("_id", .string "k"), ("_rev", .string revision)] := ⟨_, rfl⟩
  have recoverable : Recoverable [(segmentName 1, ⟨"k", (Store.revised 0 [] "k").document⟩)] := by
    have within (property : Number → Prop) : Json.Within JournalRecord.documentLevels property
        (.object [("_id", .string "k"), ("_rev", .string revision)]) := by
      simp [Json.Within, Json.depth, Json.depthMembers, Json.numbers, Json.numbersInMembers,
        JournalRecord.documentLevels, Json.Reader.maxLevels]
    have noText : ¬ Json.Embeds [("_id", .string "k"), ("_rev", .string revision)] := by
      simp [Json.Embeds, Json.Reader.embeddingName]
    apply recoverable_singleton
    · rw [document]
      exact ⟨within _, noText⟩
    · rw [document]
      exact ⟨within _, noText⟩
  have throughout : RecoverableThroughout [] Store.empty (segmentName 1)
      [.call (.insert (.object []) "k"), .reopen 2, .call (.get "k")] := by
    rw [recoverableThroughout_call_iff, recoverableThroughout_reopen_iff,
      recoverableThroughout_call_iff, logged, revise_empty]
    exact ⟨recoverable, recoverableThroughout_nil⟩
  have accepted : ∀ call ∈ calls [.call (.insert (.object []) "k"), .reopen 2, .call (.get "k")],
      call.Accepted := by
    simp only [calls_call, calls_reopen, calls_nil, List.forall_mem_cons]
    exact ⟨⟨"\x7b\x7d", rfl⟩, trivial, by simp⟩
  have fits : ∀ time ∈ [1, 2], Fits (journalIn ⟨[], ["data"]⟩) time := by
    simpa using ⟨fits_data (.inl rfl), fits_data (.inr rfl)⟩
  exact (session_transparent_iff rfl (by decide) fits accepted (by decide)).mpr throughout _
    (List.prefix_refl _) [] (by simp)

/-! ## A document that is too deep -/

section FirstWrite

variable {members : List (String × Json)} {key : String}

theorem call_insert_empty (members : List (String × Json)) (key : String) :
    Store.empty.call (.insert (.object members) key) =
      (.ok (.ack (Store.revised 0 members key).ack),
        Store.empty.place key (Store.revised 0 members key).document) := by
  rw [Store.call_insert_of_revise_ok (revise_empty members key)]
  rfl

theorem answers_insert_get (alive : (Store.revised 0 members key).document.isDeleted = false) :
    Store.empty.answers [.insert (.object members) key, .get key] =
      [.ok (.ack (Store.revised 0 members key).ack),
        .ok (.document (Store.revised 0 members key).document)] := by
  have found := Store.live?_eq_some_iff.mpr
    ⟨Store.current?_place_self Store.empty key (Store.revised 0 members key).document, alive⟩
  rw [Store.answers, call_insert_empty, Store.answers, Store.answers]
  simp only [Store.call, Store.Call.perform, DocumentStore.get, Store.get, found]
  rfl

/-- If the first document is not legible, its write is acknowledged and lost when the
store is reopened. -/
theorem session_insert_reopen_get {volume : Volume} {dataDirectory : Path} {now later : Nat}
    (emptyDirectory : volume.listDirectory dataDirectory = .ok []) (after : now < later)
    (fits : Fits (journalIn dataDirectory) now) (fitsLater : Fits (journalIn dataDirectory) later)
    (accepted : ∃ text, Json.read? text = some (.object members))
    (illegible : ¬ JournalRecord.Legible (Store.revised 0 members key).document) :
    session volume dataDirectory now
        [.call (.insert (.object members) key), .reopen later, .call (.get key)] =
      .ok [.ok (.ack (Store.revised 0 members key).ack), .error (.notFound key)] := by
  rcases exists_lockstep emptyDirectory fits with ⟨durable, place, started, lockstep⟩
  have room : ([] : Log).length < maxSequence := by decide
  have taken : Store.Call.Accepted (.insert (.object members) key) := accepted
  rcases lockstep.call room taken with ⟨answered, onward⟩
  have entry : logged Store.empty (segmentName now) (.insert (.object members) key) =
      [(segmentName now, ⟨key, (Store.revised 0 members key).document⟩)] := by
    rw [logged, revise_empty]
  rw [entry, List.nil_append] at onward
  obtain ⟨reopened, restarted, store, _⟩ :=
    onward.reopen fitsLater (by simpa using Nat.ne_of_gt after)
  rcases accepted with ⟨text, read⟩
  have stored := stored_revised 0 (Json.plain_of_read? read) key
  have unread : reread? ⟨key, (Store.revised 0 members key).document⟩ = none := by
    rw [← Option.not_isSome_iff_eq_none, stored.reread?_isSome_iff]
    exact illegible
  have nothing : reopened.store = Store.empty := by
    have replayed_nil : replayed [(segmentName now, ⟨key, (Store.revised 0 members key).document⟩)]
        (([] ++ [now]).map segmentName) = [] := by
      simp [replayed, ascending, placeName, under_singleton_self, unread]
    rw [store, replayed_nil]
    rfl
  have missing : (reopened.call (.get key)).1 = .error (.notFound key) := by
    rw [(reopened.call_fst (.get key)).1, nothing]
    rfl
  rw [session, started]
  simp only [bind, Except.bind, run, restarted, answered, call_insert_empty, missing]
  rfl

end FirstWrite

/-- Arrays inside one another. -/
def nested : Nat → Json
  | 0 => .array []
  | inner + 1 => .array [nested inner]

theorem plain_nested (inner : Nat) : (nested inner).Plain := by
  induction inner with
  | zero => trivial
  | succ inner ih => exact ⟨ih, trivial⟩

theorem depth_nested (inner : Nat) : (nested inner).depth = inner + 1 := by
  induction inner with
  | zero => rfl
  | succ inner ih => simp [nested, Json.depth, Json.depthItems, ih]

theorem numbers_nested (inner : Nat) : (nested inner).numbers = [] := by
  induction inner with
  | zero => rfl
  | succ inner ih => simp [nested, Json.numbers, Json.numbersInItems, ih]

/-- A document of 126 levels is taken, and its write is acknowledged, but it is not found
any more after the store was reopened. -/
theorem deep_document_lost :
    (∃ text, Json.read? text = some (.object [("a", nested 124)])) ∧
    session (.directory [("data", .directory [])]) ⟨[], ["data"]⟩ 1
        [.call (.insert (.object [("a", nested 124)]) "k"), .reopen 2, .call (.get "k")] =
      .ok [.ok (.ack (Store.revised 0 [("a", nested 124)] "k").ack), .error (.notFound "k")] ∧
    Store.empty.answers
        (calls [.call (.insert (.object [("a", nested 124)]) "k"), .reopen 2, .call (.get "k")]) =
      [.ok (.ack (Store.revised 0 [("a", nested 124)] "k").ack),
        .ok (.document (Store.revised 0 [("a", nested 124)] "k").document)] := by
  have accepted : ∃ text, Json.read? text = some (.object [("a", nested 124)]) := by
    have plain : Json.Plain (.object [("a", nested 124)]) :=
      ⟨by simp, by simp [Json.Embeds, Json.Reader.embeddingName], plain_nested 124, trivial⟩
    refine ⟨_, Json.read?_text plain ⟨?_, ?_⟩⟩
    · rw [Json.depth, Json.depthMembers, Json.depthMembers, depth_nested]
      decide
    · simp [Json.numbers, Json.numbersInMembers, numbers_nested]
  obtain ⟨revision, document⟩ : ∃ revision,
      (Store.revised 0 [("a", nested 124)] "k").document = .object
        [("a", nested 124), ("_id", .string "k"), ("_rev", .string revision)] := ⟨_, rfl⟩
  have illegible : ¬ JournalRecord.Legible (Store.revised 0 [("a", nested 124)] "k").document := by
    rintro ⟨⟨shallow, _⟩, _⟩
    rw [document, Json.depth, Json.depthMembers, depth_nested] at shallow
    have least := Nat.le_trans (Nat.add_le_add_right (Nat.le_max_left _ _) 1) shallow
    exact absurd least (by decide)
  have alive : (Store.revised 0 [("a", nested 124)] "k").document.isDeleted = false := by
    rw [document]
    rfl
  exact ⟨accepted, session_insert_reopen_get rfl (by decide) (fits_data (.inl rfl))
    (fits_data (.inr rfl)) accepted illegible, answers_insert_get alive⟩

end DurableStore

end Folio
