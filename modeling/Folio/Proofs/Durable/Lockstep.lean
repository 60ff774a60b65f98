import Folio.Proofs.Durable.Recovery
import Folio.Proofs.Durable.Writing
import Folio.Proofs.Json.Accepted

/-!
# Runs of a durable store

A durable store and a store that was never closed are followed step by step.  While they
cannot be told apart, the same revisions are acknowledged by both, so that the log of the
journal is known from the run of the store alone.
-/

namespace Folio

open Journal

/-! ## Runs -/

/-- Whether the document of a call, if it has one, was read from a text. -/
def Store.Call.Accepted : Store.Call → Prop
  | .insert document _ => ∃ text, Json.read? text = some document
  | _ => True

namespace DurableStore

/-- Perform a call. -/
def call (durable : DurableStore) (call : Store.Call) : Store.Answer × DurableStore :=
  call.perform (fun durable => durable.store.documents) durable

section Insert

variable {durable : DurableStore} {document : Json} {key : String}

theorem call_insert_of_revise_error {error : StoreError}
    (failed : durable.store.revise document key = .error error) :
    durable.call (.insert document key) = (.error error, durable) := by
  simp only [call, Store.Call.perform, DocumentStore.insert, insert_of_revise_error failed]
  rfl

theorem call_insert_of_append_ok {revision : Revision} {volume : Volume}
    (ready : durable.store.revise document key = .ok revision)
    (wrote : durable.journal.append durable.volume false ⟨key, revision.document⟩ =
      .ok volume) :
    durable.call (.insert document key) =
      (.ok (.ack revision.ack), ⟨durable.store.keep revision, durable.journal, volume⟩) := by
  simp only [call, Store.Call.perform, DocumentStore.insert, insert_of_append_ok ready wrote]
  rfl

end Insert

/-- A step of a run: a call, or closing the store and opening it again at a time. -/
inductive Step where
  | call (call : Store.Call)
  | reopen (now : Nat)

/-- The calls among steps. -/
def calls (steps : List Step) : List Store.Call :=
  steps.filterMap fun step =>
    match step with
    | .call call => some call
    | .reopen _ => none

/-- The times at which steps open the store again. -/
def reopenings (steps : List Step) : List Nat :=
  steps.filterMap fun step =>
    match step with
    | .call _ => none
    | .reopen now => some now

@[simp]
theorem calls_nil : calls [] = [] := rfl

@[simp]
theorem calls_call (call : Store.Call) (rest : List Step) :
    calls (.call call :: rest) = call :: calls rest := rfl

@[simp]
theorem calls_reopen (now : Nat) (rest : List Step) :
    calls (.reopen now :: rest) = calls rest := rfl

@[simp]
theorem reopenings_nil : reopenings [] = [] := rfl

@[simp]
theorem reopenings_call (call : Store.Call) (rest : List Step) :
    reopenings (.call call :: rest) = reopenings rest := rfl

@[simp]
theorem reopenings_reopen (now : Nat) (rest : List Step) :
    reopenings (.reopen now :: rest) = now :: reopenings rest := rfl

/-- The answers to the calls of a run. -/
def run (dataDirectory : Path) (durable : DurableStore) :
    List Step → Except FileError (List Store.Answer)
  | [] => .ok []
  | .call call :: rest => do
      let answers ← run dataDirectory (durable.call call).2 rest
      return (durable.call call).1 :: answers
  | .reopen now :: rest => do
      let reopened ← start durable.volume dataDirectory now
      run dataDirectory reopened rest

/-- The answers of a store that is opened at a time. -/
def session (volume : Volume) (dataDirectory : Path) (now : Nat) (steps : List Step) :
    Except FileError (List Store.Answer) := do
  let durable ← start volume dataDirectory now
  run dataDirectory durable steps

/-- What a call writes into a segment. -/
def logged (store : Store) (segment : String) : Store.Call → Log
  | .insert document key =>
      match store.revise document key with
      | .ok revision => [(segment, ⟨key, revision.document⟩)]
      | .error _ => []
  | .get _ => []
  | .view _ _ _ => []
  | .documents => []

theorem length_logged_le (store : Store) (segment : String) (call : Store.Call) :
    (logged store segment call).length ≤ 1 := by
  cases call with
  | insert document key =>
      rw [logged]
      cases store.revise document key <;> simp
  | get key => simp [logged]
  | view collection name options => simp [logged]
  | documents => simp [logged]

/-- What steps write, from the store that they start with and the segment that is open. -/
def written (store : Store) (segment : String) : List Step → Log
  | [] => []
  | .call call :: rest => logged store segment call ++ written (store.call call).2 segment rest
  | .reopen now :: rest => written store (segmentName now) rest

/-! ## Opening -/

/-- A store that is opened on an empty data directory is empty, and so is its journal. -/
theorem exists_start {volume : Volume} {dataDirectory : Path} {now : Nat}
    (emptyDirectory : volume.listDirectory dataDirectory = .ok [])
    (fits : Fits (journalIn dataDirectory) now) :
    ∃ opened place,
      start volume dataDirectory now =
        .ok ⟨Store.empty, ⟨place ++ [segmentName now]⟩, opened⟩ ∧
      Holds opened (journalIn dataDirectory) place [] [now] := by
  have ordinary : Volume.Ordinary "wal" := ⟨by decide, by decide, by decide⟩
  rcases Volume.leads_of_listDirectory emptyDirectory with ⟨place, leads, _, _⟩
  have short : (dataDirectory.join "wal").size ≤ Volume.maxPathSize :=
    Nat.le_trans (Path.size_join_le dataDirectory (by decide) _) fits.path
  rcases start_missing leads ordinary fits with ⟨opened, started, holds⟩
  refine ⟨opened, place ++ ["wal"], ?_, holds⟩
  have nothing : Journal.replay volume (journalIn dataDirectory) = .ok [] :=
    replay_missing leads ordinary short
  exact start_eq_ok_iff.mpr ⟨map_eq_ok_iff.mpr ⟨[], nothing, rfl⟩, started⟩

theorem fits_of_start {volume : Volume} {dataDirectory : Path} {now : Nat}
    {opened : DurableStore} (started : start volume dataDirectory now = .ok opened) :
    Fits (journalIn dataDirectory) now :=
  Journal.fits_of_start (start_eq_ok_iff.mp started).2

/-! ## Two stores in lockstep -/

/-- A durable store and a store that was never closed, after the same calls: they cannot
be told apart, and the journal holds what the store has written. -/
structure Lockstep (dataDirectory : Path) (place : List String) (durable : DurableStore)
    (store : Store) (log : Log) (past : List Nat) (now : Nat) : Prop where
  alike : Store.Alike durable.store store
  chronicle : Chronicle log store
  holds : Holds durable.volume (journalIn dataDirectory) place log (past ++ [now])
  journal : durable.journal = ⟨place ++ [segmentName now]⟩

/-- A durable store answers as its store does. -/
theorem call_fst (durable : DurableStore) (call : Store.Call) :
    (durable.call call).1 = (durable.store.call call).1 ∧
      (durable.call call).2.store = (durable.store.call call).2 := by
  cases call with
  | insert document key =>
      simp only [DurableStore.call, Store.call, Store.Call.perform, DocumentStore.insert,
        DurableStore.insert, Store.insert, Journal.append, Bool.false_eq_true, if_false]
      cases durable.store.revise document key <;> exact ⟨rfl, rfl⟩
  | get key => exact ⟨rfl, rfl⟩
  | view collection name options => exact ⟨rfl, rfl⟩
  | documents => exact ⟨rfl, rfl⟩

/-- Calls are answered as by every store that cannot be told apart from its own. -/
theorem run_calls (dataDirectory : Path) {durable : DurableStore} {store : Store}
    (alike : Store.Alike durable.store store) (calls : List Store.Call) :
    run dataDirectory durable (calls.map .call) = .ok (store.answers calls) := by
  induction calls generalizing durable store with
  | nil => rfl
  | cons call rest ih =>
      rcases alike.call call with ⟨same, onward⟩
      rcases durable.call_fst call with ⟨answered, changed⟩
      rw [← changed] at onward
      rw [List.map_cons, run, ih onward, Store.answers, answered, same]
      rfl

section Lockstep

variable {dataDirectory : Path} {place : List String} {durable : DurableStore} {store : Store}
  {log : Log} {past : List Nat} {now : Nat}

/-- A call keeps the two in lockstep. -/
theorem Lockstep.call (lockstep : Lockstep dataDirectory place durable store log past now)
    (room : log.length < maxSequence) {call : Store.Call} (accepted : call.Accepted) :
    (durable.call call).1 = (store.call call).1 ∧
      Lockstep dataDirectory place (durable.call call).2 (store.call call).2
        (log ++ logged store (segmentName now) call) past now := by
  rcases lockstep.alike.call call with ⟨same, onward⟩
  rcases durable.call_fst call with ⟨answered, changed⟩
  refine ⟨answered.trans same, ?_⟩
  rw [← changed] at onward
  cases call with
  | insert document key =>
      have agreed := lockstep.alike.revise document key
      cases ready : store.revise document key with
      | error error =>
          rw [ready] at agreed
          rw [call_insert_of_revise_error agreed, Store.call_insert_of_revise_error ready, logged,
            ready, List.append_nil]
          exact lockstep
      | ok revision =>
          rw [ready] at agreed
          rcases accepted with ⟨text, read⟩
          obtain ⟨volume, wrote, holds⟩ := lockstep.holds.append
            (List.mem_append_right _ List.mem_cons_self) ⟨key, revision.document⟩
          rw [← lockstep.journal] at wrote
          rw [call_insert_of_append_ok agreed wrote,
            Store.call_insert_of_revise_ok ready] at onward ⊢
          rw [logged, ready]
          exact ⟨onward, lockstep.chronicle.write room (Json.plain_of_read? read) ready _, holds,
            lockstep.journal⟩
  | get key =>
      rw [logged, List.append_nil]
      exact lockstep
  | view collection name options =>
      rw [logged, List.append_nil]
      exact lockstep
  | documents =>
      rw [logged, List.append_nil]
      exact lockstep

/-- Reopening replays the journal and starts another segment. -/
theorem Lockstep.reopen (lockstep : Lockstep dataDirectory place durable store log past now)
    {later : Nat} (fits : Fits (journalIn dataDirectory) later) (new : later ∉ past ++ [now]) :
    ∃ reopened, start durable.volume dataDirectory later = .ok reopened ∧
      reopened.store = ofRecords (replayed log ((past ++ [now]).map segmentName)) ∧
      (Store.Alike reopened.store store ↔ Recoverable log) ∧
      (Recoverable log →
        Lockstep dataDirectory place reopened store log (past ++ [now]) later) := by
  rcases lockstep.holds.start fits new with ⟨volume, opened, holds⟩
  have recovered := alike_ofRecords_iff lockstep.chronicle lockstep.holds.nodup_names
    lockstep.holds.filed
  refine ⟨⟨ofRecords (replayed log ((past ++ [now]).map segmentName)),
    ⟨place ++ [segmentName later]⟩, volume⟩, ?_, rfl, recovered, ?_⟩
  · exact start_eq_ok_iff.mpr ⟨map_eq_ok_iff.mpr ⟨_, lockstep.holds.replay, rfl⟩, opened⟩
  · intro recoverable
    exact ⟨recovered.mpr recoverable, lockstep.chronicle, holds, rfl⟩

end Lockstep

end DurableStore

end Folio
