import Folio.Proofs.Durable.Lockstep

/-!
# Writes to files that are refused

While writes to files are refused, an insert that the store would acknowledge is
answered with the error and leaves no trace, neither in the store nor in the journal.
So at every point of a run the journal has one line for each insert that was
acknowledged, with the document as the store holds it.
-/

namespace Folio

open Journal

/-! ## Runs -/

/-- A call, and whether writes to files are refused while it is made. -/
structure Store.Attempt where
  call : Store.Call
  refused : Bool

namespace DurableStore

/-- Attempt a call. -/
def attempt (durable : DurableStore) (attempt : Store.Attempt) : Store.Answer × DurableStore :=
  match attempt.call with
  | .insert document key =>
      match durable.insert attempt.refused document key with
      | .ok (ack, next) => (.ok (.ack ack), next)
      | .error error => (.error error, durable)
  | call => durable.call call

/-- The answers to attempts made one after the other, and the store after them. -/
def attempts (durable : DurableStore) : List Store.Attempt → List Store.Answer × DurableStore
  | [] => ([], durable)
  | attempt :: rest =>
      let (answers, last) := (durable.attempt attempt).2.attempts rest
      ((durable.attempt attempt).1 :: answers, last)

end DurableStore

namespace Store

/-- What an insert is answered while writes to files are refused. -/
def refusedWrite : StoreError := .io FileError.tooLarge.message

/-- What becomes of an attempt: an insert that would be acknowledged while writes to files
are refused is answered with the error, as if it had not been made. -/
def attempt (store : Store) (attempt : Attempt) : Answer × Store :=
  match store.call attempt.call with
  | (.ok (.ack ack), next) =>
      if attempt.refused then (.error refusedWrite, store) else (.ok (.ack ack), next)
  | other => other

/-- The answers to attempts made one after the other, and the store after them. -/
def attempts (store : Store) : List Attempt → List Answer × Store
  | [] => ([], store)
  | attempt :: rest =>
      let (answers, last) := (store.attempt attempt).2.attempts rest
      ((store.attempt attempt).1 :: answers, last)

/-- The acknowledgement of an attempt, with the record of its key and of the document that
it has stored there. -/
def acknowledged (store : Store) (attempt : Attempt) : List (Ack × JournalRecord) :=
  match attempt.call, store.attempt attempt with
  | .insert _ key, (.ok (.ack ack), next) =>
      (next.current? key).toList.map fun document => (ack, ⟨key, document⟩)
  | _, _ => []

/-- The acknowledgements of attempts made one after the other. -/
def acknowledgements (store : Store) : List Attempt → List (Ack × JournalRecord)
  | [] => []
  | attempt :: rest =>
      store.acknowledged attempt ++ (store.attempt attempt).2.acknowledgements rest

/-- The acknowledgements among answers. -/
def acks (answers : List Answer) : List Ack :=
  answers.filterMap fun answer =>
    match answer with
    | .ok (.ack ack) => some ack
    | _ => none

/-! ## What an attempt does -/

variable {store : Store} {document : Json} {key : String} {revision : Revision}

theorem attempt_of_revise_error {error : StoreError}
    (refuses : store.revise document key = .error error) (refused : Bool) :
    store.attempt ⟨.insert document key, refused⟩ = (.error error, store) := by
  simp only [attempt, call_insert_of_revise_error refuses]

theorem attempt_refused (revised : store.revise document key = .ok revision) :
    store.attempt ⟨.insert document key, true⟩ = (.error refusedWrite, store) := by
  simp only [attempt, call_insert_of_revise_ok revised, if_true]

theorem attempt_taken (revised : store.revise document key = .ok revision) :
    store.attempt ⟨.insert document key, false⟩ =
      (.ok (.ack revision.ack), store.keep revision) := by
  simp only [attempt, call_insert_of_revise_ok revised, Bool.false_eq_true, if_false]

theorem acknowledged_taken (revised : store.revise document key = .ok revision) :
    store.acknowledged ⟨.insert document key, false⟩ =
      [(revision.ack, ⟨key, revision.document⟩)] := by
  have current : (store.keep revision).current? key = some revision.document := by
    obtain ⟨members, _, _, rfl⟩ := revise_eq_ok_iff.mp revised
    exact current?_place_self store key _
  rw [acknowledged, attempt_taken revised]
  simp only [current]
  rfl

end Store

/-- Whether a call writes. -/
def Store.Call.Writes : Store.Call → Prop
  | .insert _ _ => True
  | _ => False

namespace Store

/-- An attempt that does not write is answered as the call is, and acknowledges nothing. -/
theorem attempt_of_not_writes (store : Store) {call : Call} (reads : ¬ call.Writes)
    (refused : Bool) :
    store.attempt ⟨call, refused⟩ = ((store.call call).1, store) ∧
      store.acknowledged ⟨call, refused⟩ = [] ∧ acks [(store.call call).1] = [] := by
  cases call with
  | insert document key => exact absurd trivial reads
  | get key =>
      simp only [attempt, Store.call, Call.perform, DocumentStore.get]
      cases store.get key <;> exact ⟨rfl, rfl, rfl⟩
  | view collection name options =>
      simp only [attempt, Store.call, Call.perform, DocumentStore.view]
      cases store.view collection name options <;> exact ⟨rfl, rfl, rfl⟩
  | documents => exact ⟨rfl, rfl, rfl⟩

/-- An attempt acknowledges nothing, or the revision that it has stored. -/
theorem acknowledged_cases (store : Store) (attempt : Attempt) :
    (store.acknowledged attempt = [] ∧ acks [(store.attempt attempt).1] = []) ∨
      ∃ sequence members key,
        store.acknowledged attempt =
          [((revised sequence members key).ack, ⟨key, (revised sequence members key).document⟩)] ∧
        acks [(store.attempt attempt).1] = [(revised sequence members key).ack] := by
  rcases attempt with ⟨call, refused⟩
  by_cases writes : call.Writes
  · cases call with
    | insert document key =>
        cases ready : store.revise document key with
        | error error =>
            rw [acknowledged, attempt_of_revise_error ready]
            exact .inl ⟨rfl, rfl⟩
        | ok revision =>
            cases refused with
            | true =>
                rw [acknowledged, attempt_refused ready]
                exact .inl ⟨rfl, rfl⟩
            | false =>
                rw [acknowledged_taken ready, attempt_taken ready]
                obtain ⟨members, _, _, rfl⟩ := revise_eq_ok_iff.mp ready
                exact .inr ⟨_, members, key, rfl, rfl⟩
    | get key => exact absurd writes id
    | view collection name options => exact absurd writes id
    | documents => exact absurd writes id
  · rcases store.attempt_of_not_writes writes refused with ⟨same, nothing, silent⟩
    rw [same]
    exact .inl ⟨nothing, silent⟩

/-- Every acknowledgement among the answers has its record. -/
theorem map_fst_acknowledgements (store : Store) (attempts : List Attempt) :
    (store.acknowledgements attempts).map Prod.fst = acks (store.attempts attempts).1 := by
  induction attempts generalizing store with
  | nil => rfl
  | cons attempt rest ih =>
      have first : (store.acknowledged attempt).map Prod.fst =
          acks [(store.attempt attempt).1] := by
        rcases store.acknowledged_cases attempt with ⟨nothing, silent⟩ | ⟨_, _, _, stored, answered⟩
        · rw [nothing, silent]
          rfl
        · rw [stored, answered]
          rfl
      rw [acknowledgements, List.map_append, first, ih, attempts, acks, acks, acks,
        ← List.filterMap_append]
      rfl

/-- A record holds the document under its key, with the revision that was acknowledged. -/
theorem carries_of_mem_acknowledgements {store : Store} {attempts : List Attempt}
    {written : Ack × JournalRecord} (member : written ∈ store.acknowledgements attempts) :
    written.1.id = written.2.key ∧
      written.2.document.stringMember? idMember = some written.2.key ∧
      written.2.document.stringMember? revisionMember = some written.1.revision := by
  induction attempts generalizing store with
  | nil => simp [acknowledgements] at member
  | cons attempt rest ih =>
      rcases List.mem_append.mp member with here | later
      · rcases store.acknowledged_cases attempt with ⟨nothing, _⟩ |
          ⟨sequence, members, key, stored, _⟩
        · simp [nothing] at here
        · rw [stored, List.mem_singleton] at here
          subst here
          refine ⟨rfl, ?_, ?_⟩
          · rw [Json.stringMember?, key_revised]
            rfl
          · rw [Json.stringMember?, revision_revised]
            rfl
      · exact ih later

end Store

namespace DurableStore

variable {durable : DurableStore} {dataDirectory : Path} {place : List String} {now : Nat}
  {written : List (Ack × JournalRecord)}

/-! ## The journal of a run -/

theorem attempt_of_not_writes {call : Store.Call} (reads : ¬ call.Writes) (refused : Bool) :
    durable.attempt ⟨call, refused⟩ = ((durable.store.call call).1, durable) := by
  cases call with
  | insert document key => exact absurd trivial reads
  | get key => rfl
  | view collection name options => rfl
  | documents => rfl

section Insert

variable {document : Json} {key : String} {revision : Revision}

theorem attempt_of_revise_error {error : StoreError}
    (failed : durable.store.revise document key = .error error) (refused : Bool) :
    durable.attempt ⟨.insert document key, refused⟩ = (.error error, durable) := by
  simp only [attempt, insert_of_revise_error failed]

theorem attempt_refused (revised : durable.store.revise document key = .ok revision) :
    durable.attempt ⟨.insert document key, true⟩ = (.error Store.refusedWrite, durable) := by
  have failed : durable.journal.append durable.volume true ⟨key, revision.document⟩ =
      .error .tooLarge := rfl
  simp only [attempt, insert_of_append_error revised failed]
  rfl

theorem attempt_taken {volume : Volume}
    (revised : durable.store.revise document key = .ok revision)
    (wrote : durable.journal.append durable.volume false ⟨key, revision.document⟩ =
      .ok volume) :
    durable.attempt ⟨.insert document key, false⟩ =
      (.ok (.ack revision.ack), ⟨durable.store.keep revision, durable.journal, volume⟩) := by
  simp only [attempt, insert_of_append_ok revised wrote]

end Insert

/-- Whether the journal holds the records of what was acknowledged. -/
structure Records (dataDirectory : Path) (place : List String) (now : Nat)
    (durable : DurableStore) (written : List (Ack × JournalRecord)) : Prop where
  holds : Holds durable.volume (journalIn dataDirectory) place
    (written.map fun entry => (segmentName now, entry.2)) [now]
  journal : durable.journal = ⟨place ++ [segmentName now]⟩

/-- One attempt is answered as by the store, and its acknowledgement is recorded. -/
theorem Records.attempt (records : Records dataDirectory place now durable written)
    (attempt : Store.Attempt) :
    (durable.attempt attempt).1 = (durable.store.attempt attempt).1 ∧
      (durable.attempt attempt).2.store = (durable.store.attempt attempt).2 ∧
      Records dataDirectory place now (durable.attempt attempt).2
        (written ++ durable.store.acknowledged attempt) := by
  rcases attempt with ⟨call, refused⟩
  by_cases writes : call.Writes
  · cases call with
    | insert document key =>
        cases revised : durable.store.revise document key with
        | error error =>
            rw [attempt_of_revise_error revised, Store.acknowledged,
              Store.attempt_of_revise_error revised]
            exact ⟨rfl, rfl, by simpa using records⟩
        | ok revision =>
            cases refused with
            | true =>
                rw [attempt_refused revised, Store.acknowledged, Store.attempt_refused revised]
                exact ⟨rfl, rfl, by simpa using records⟩
            | false =>
                obtain ⟨volume, wrote, holds⟩ := records.holds.append List.mem_cons_self
                  ⟨key, revision.document⟩
                rw [← records.journal] at wrote
                rw [attempt_taken revised wrote, Store.acknowledged_taken revised,
                  Store.attempt_taken revised]
                refine ⟨rfl, rfl, ?_, records.journal⟩
                simpa using holds
    | get key => exact absurd writes id
    | view collection name options => exact absurd writes id
    | documents => exact absurd writes id
  · rcases durable.store.attempt_of_not_writes writes refused with ⟨same, nothing, _⟩
    rw [attempt_of_not_writes writes, same, nothing, List.append_nil]
    exact ⟨rfl, rfl, records⟩

/-- A run is answered as by the store, and all of its acknowledgements are recorded. -/
theorem Records.attempts (records : Records dataDirectory place now durable written)
    (attempts : List Store.Attempt) :
    (durable.attempts attempts).1 = (durable.store.attempts attempts).1 ∧
      (durable.attempts attempts).2.store = (durable.store.attempts attempts).2 ∧
      Records dataDirectory place now (durable.attempts attempts).2
        (written ++ durable.store.acknowledgements attempts) := by
  induction attempts generalizing durable written with
  | nil =>
      rw [Store.acknowledgements, List.append_nil]
      exact ⟨rfl, rfl, records⟩
  | cons attempt rest ih =>
      rcases records.attempt attempt with ⟨answered, changed, recorded⟩
      rcases ih recorded with ⟨answers, last, all⟩
      rw [changed] at answers last all
      rw [List.append_assoc] at all
      exact ⟨congrArg₂ List.cons answered answers, last, all⟩

/-- A durable store that is opened on an empty data directory answers every run as a store
in memory does for which inserts that are refused their writes were never made.  At the
end of the run, and so at every point of one, the journal has one line for each
acknowledgement, in order: the JSON text of the record of the key and of the document as it
is stored, with the key and the acknowledged revision in it. -/
theorem attempts_in_lockstep {volume : Volume} {dataDirectory : Path} {now : Nat}
    {opened : DurableStore} (emptyDirectory : volume.listDirectory dataDirectory = .ok [])
    (started : start volume dataDirectory now = .ok opened) (attempts : List Store.Attempt) :
    (opened.attempts attempts).1 = (Store.empty.attempts attempts).1 ∧
    (opened.attempts attempts).2.store = (Store.empty.attempts attempts).2 ∧
    allLines (opened.attempts attempts).2.volume (journalIn dataDirectory) =
      (Store.empty.acknowledgements attempts).map (fun written =>
        (Json.object [("Insert", .object [("key", .string written.2.key),
          ("doc", written.2.document)])]).text) ∧
    (Store.empty.acknowledgements attempts).map Prod.fst =
      Store.acks (Store.empty.attempts attempts).1 ∧
    ∀ written ∈ Store.empty.acknowledgements attempts,
      written.1.id = written.2.key ∧
      written.2.document.stringMember? idMember = some written.2.key ∧
      written.2.document.stringMember? revisionMember = some written.1.revision := by
  obtain ⟨volume, place, begun, holds⟩ := exists_start emptyDirectory (fits_of_start started)
  rw [started, Except.ok.injEq] at begun
  subst begun
  have records : Records dataDirectory place now
      ⟨Store.empty, ⟨place ++ [segmentName now]⟩, volume⟩ [] := ⟨holds, rfl⟩
  rcases records.attempts attempts with ⟨answers, last, all⟩
  refine ⟨answers, last, ?_, Store.map_fst_acknowledgements _ _,
    fun _ => Store.carries_of_mem_acknowledgements⟩
  have own (written : List (Ack × JournalRecord)) :
      under (written.map fun entry => (segmentName now, entry.2)) (segmentName now) =
        written.map Prod.snd := by
    simp [under, List.filter_map, Function.comp_def]
  rw [all.holds.allLines]
  simp only [List.map_cons, List.map_nil, ascending, List.foldr_cons, List.foldr_nil, placeName,
    List.flatMap_cons, List.flatMap_nil, List.append_nil, List.nil_append, own, List.map_map,
    Function.comp_def, JournalRecord.ofList_line]

/-- An insert that was refused its write may be made again; it is recorded once. -/
theorem attempts_in_lockstep_refused_once :
    ∃ opened, start (.directory [("data", .directory [])]) ⟨[], ["data"]⟩ 1 = .ok opened ∧
      (opened.attempts [⟨.insert (.object []) "k", true⟩, ⟨.insert (.object []) "k", false⟩]).1 =
        [.error (.io "File too large (os error 27)"),
          .ok (.ack (Store.revised 0 [] "k").ack)] ∧
      allLines (opened.attempts
          [⟨.insert (.object []) "k", true⟩, ⟨.insert (.object []) "k", false⟩]).2.volume
          (journalIn ⟨[], ["data"]⟩) =
        [(Json.object [("Insert", .object [("key", .string "k"),
          ("doc", (Store.revised 0 [] "k").document)])]).text] := by
  have fits : Fits (journalIn ⟨[], ["data"]⟩) 1 := ⟨by decide +kernel, by decide +kernel⟩
  have emptyDirectory : (Volume.directory [("data", .directory [])]).listDirectory ⟨[], ["data"]⟩ =
      .ok [] := rfl
  obtain ⟨volume, place, started, _⟩ := exists_start emptyDirectory fits
  rcases attempts_in_lockstep emptyDirectory started
    [⟨.insert (.object []) "k", true⟩, ⟨.insert (.object []) "k", false⟩] with
    ⟨answers, _, lines, _⟩
  refine ⟨_, started, ?_, ?_⟩
  · rw [answers]
    rfl
  · rw [lines]
    rfl

end DurableStore

end Folio
