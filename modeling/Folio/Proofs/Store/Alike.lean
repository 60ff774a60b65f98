import Folio.Proofs.Store.Revision
import Folio.Proofs.Store.Rows
import Folio.Proofs.Store.Write
import Folio.Store.Access

/-!
# Stores that cannot be told apart

Two stores answer every run of calls alike exactly when the same documents are alive in
them and the same sequence number is known under every key.  What else a tombstone holds
is never seen.
-/

namespace Folio.Store

/-! ## Calls -/

/-- A call to a store. -/
inductive Call where
  | insert (document : Json) (key : String)
  | get (key : String)
  | view (collection name : String) (options : ViewOptions)
  | documents

/-- What a call gives when it is not refused. -/
inductive Reply where
  | ack (ack : Ack)
  | document (document : Json)
  | rows (rows : List ViewRow)
  | documents (documents : List Json)

/-- What a call is answered. -/
abbrev Answer := Except StoreError Reply

/-- Perform a call on a store of any kind, whose documents are given by a function. -/
def Call.perform {σ : Type} [DocumentStore σ] (documents : σ → List Json) (store : σ) :
    Call → Answer × σ
  | .insert document key =>
      let (answer, next) := DocumentStore.insert store document key
      (answer.map .ack, next)
  | .get key =>
      let (answer, next) := DocumentStore.get store key
      (answer.map .document, next)
  | .view collection name options =>
      let (answer, next) := DocumentStore.view store collection name options
      (answer.map .rows, next)
  | .documents => (.ok (.documents (documents store)), store)

/-- Perform a call. -/
def call (store : Store) (call : Call) : Answer × Store := call.perform documents store

section Insert

variable {store : Store} {document : Json} {key : String}

theorem call_insert_of_revise_error {error : StoreError}
    (failed : store.revise document key = .error error) :
    store.call (.insert document key) = (.error error, store) := by
  simp only [call, Call.perform, DocumentStore.insert, insert_of_revise_error failed]
  rfl

theorem call_insert_of_revise_ok {revision : Revision}
    (ready : store.revise document key = .ok revision) :
    store.call (.insert document key) = (.ok (.ack revision.ack), store.keep revision) := by
  simp only [call, Call.perform, DocumentStore.insert, insert_of_revise_ok ready]
  rfl

end Insert

/-- The answers to calls made one after the other. -/
def answers (store : Store) : List Call → List Answer
  | [] => []
  | call :: rest => (store.call call).1 :: answers (store.call call).2 rest

/-- The sequence number that is known under a key. -/
def sequenceAt (store : Store) (key : String) : Nat :=
  ((store.current? key).map Json.sequence).getD 0

/-- Whether two stores cannot be told apart. -/
structure Alike (first second : Store) : Prop where
  live : ∀ key, first.live? key = second.live? key
  sequence : ∀ key, first.sequenceAt key = second.sequenceAt key

theorem Alike.refl (store : Store) : Alike store store := ⟨fun _ => rfl, fun _ => rfl⟩

/-! ## Stores that are alike answer alike -/

section Alike

variable {first second : Store}

theorem Alike.filter_entries (alike : Alike first second) :
    first.entries.filter (fun entry => !entry.2.isDeleted) =
      second.entries.filter (fun entry => !entry.2.isDeleted) := by
  apply eq_of_ascending_of_mem_iff (first.ascending.filter _) (second.ascending.filter _)
  rintro ⟨key, document⟩
  have live := alike.live key
  rw [List.mem_filter, List.mem_filter, mem_entries_iff, mem_entries_iff, Bool.not_eq_true',
    ← live?_eq_some_iff, ← live?_eq_some_iff, live]

theorem Alike.documents (alike : Alike first second) : first.documents = second.documents := by
  have entries := congrArg (List.map Prod.snd) alike.filter_entries
  rw [Store.documents, Store.documents, List.filter_map, List.filter_map]
  exact entries

theorem Alike.rowsFrom (alike : Alike first second) (start : String) (options : ViewOptions) :
    first.rowsFrom start options = second.rowsFrom start options := by
  have split (store : Store) : store.entries.filter (fun entry =>
        Text.startsWith start entry.1 && !entry.2.isDeleted && options.key.all (· == entry.1)) =
      (store.entries.filter fun entry => !entry.2.isDeleted).filter fun entry =>
        Text.startsWith start entry.1 && options.key.all (· == entry.1) := by
    rw [List.filter_filter]
    apply List.filter_congr
    rintro ⟨key, document⟩ _
    dsimp only
    cases Text.startsWith start key <;> cases document.isDeleted <;> simp
  rw [rowsFrom_eq, rowsFrom_eq, split, split, alike.filter_entries]

theorem Alike.view (alike : Alike first second) (collection name : String)
    (options : ViewOptions) :
    first.view collection name options = second.view collection name options := by
  rw [Store.view, Store.view, alike.live]
  simp only [alike.rowsFrom]

theorem Alike.revise (alike : Alike first second) (document : Json) (key : String) :
    first.revise document key = second.revise document key :=
  revise_congr (alike.live key) (alike.sequence key) document

/-- The same document may be put under the same key. -/
theorem Alike.place (alike : Alike first second) (key : String) (document : Json) :
    Alike (first.place key document) (second.place key document) := by
  constructor
  · intro other
    by_cases same : other = key
    · rw [same, live?, live?, current?_place_self, current?_place_self]
    · have before := alike.live other
      rw [live?, live?] at before ⊢
      rw [current?_place_of_ne same, current?_place_of_ne same, before]
  · intro other
    by_cases same : other = key
    · rw [same, sequenceAt, sequenceAt, current?_place_self, current?_place_self]
    · have before := alike.sequence other
      rw [sequenceAt, sequenceAt] at before ⊢
      rw [current?_place_of_ne same, current?_place_of_ne same, before]

/-- A call is answered alike and leaves stores that are alike. -/
theorem Alike.call (alike : Alike first second) (call : Call) :
    (first.call call).1 = (second.call call).1 ∧
      Alike (first.call call).2 (second.call call).2 := by
  cases call with
  | insert document key =>
      have agreed := alike.revise document key
      cases ready : second.revise document key with
      | error error =>
          rw [ready] at agreed
          rw [call_insert_of_revise_error agreed, call_insert_of_revise_error ready]
          exact ⟨rfl, alike⟩
      | ok revision =>
          rw [ready] at agreed
          rw [call_insert_of_revise_ok agreed, call_insert_of_revise_ok ready]
          exact ⟨rfl, alike.place _ _⟩
  | get key =>
      have same : first.get key = second.get key := by rw [Store.get, Store.get, alike.live]
      simp only [Store.call, Call.perform, DocumentStore.get, same]
      exact ⟨trivial, alike⟩
  | view collection name options =>
      simp only [Store.call, Call.perform, DocumentStore.view, alike.view]
      exact ⟨trivial, alike⟩
  | documents =>
      simp only [Store.call, Call.perform, alike.documents]
      exact ⟨trivial, alike⟩

/-! ## Stores that answer alike are alike -/

/-- What is alive under a key is what asking for it gives. -/
theorem live?_eq_of_get_eq {key : String}
    (same : (first.call (.get key)).1 = (second.call (.get key)).1) :
    first.live? key = second.live? key := by
  simp only [Store.call, Call.perform, DocumentStore.get, Store.get] at same
  cases one : first.live? key with
  | none =>
      cases other : second.live? key with
      | none => rfl
      | some document =>
          rw [one, other] at same
          contradiction
  | some document =>
      cases other : second.live? key with
      | none =>
          rw [one, other] at same
          contradiction
      | some document' =>
          rw [one, other] at same
          cases same
          rfl

/-- Where nothing is alive, the sequence number is what a write is acknowledged with. -/
theorem sequenceAt_eq_of_insert_eq {key : String} (dead : first.live? key = none)
    (gone : second.live? key = none)
    (same : (first.call (.insert (.object []) key)).1 =
      (second.call (.insert (.object []) key)).1) :
    first.sequenceAt key = second.sequenceAt key := by
  have accepted := accepts_of_live?_eq_none dead (Fields.get? [] revisionMember)
  have accepted' := accepts_of_live?_eq_none gone (Fields.get? [] revisionMember)
  simp only [Store.call, Call.perform, DocumentStore.insert, insert_of_accepts accepted,
    insert_of_accepts accepted', Except.map, Except.ok.injEq, Reply.ack.injEq] at same
  rcases revised_ack (first.sequenceAt key) [] key with ⟨stamp, _, ack⟩
  rcases revised_ack (second.sequenceAt key) [] key with ⟨stamp', _, ack'⟩
  rw [sequenceAt] at ack ack'
  rw [ack, ack', Ack.mk.injEq] at same
  have equal := sequence_eq_of_revisionText_eq same.2
  exact Nat.succ.inj equal

/-- Stores are alike exactly when asking for a document and writing an empty one are
answered alike under every key. -/
theorem alike_iff_probes : Alike first second ↔ ∀ key,
    (first.call (.get key)).1 = (second.call (.get key)).1 ∧
      (first.call (.insert (.object []) key)).1 = (second.call (.insert (.object []) key)).1 := by
  constructor
  · intro alike key
    exact ⟨(alike.call _).1, (alike.call _).1⟩
  · intro probes
    have live (key : String) := live?_eq_of_get_eq (probes key).1
    refine ⟨live, ?_⟩
    intro key
    cases alive : second.live? key with
    | none =>
        exact sequenceAt_eq_of_insert_eq ((live key).trans alive) alive (probes key).2
    | some document =>
        have here := (live?_eq_some_iff.mp alive).1
        have there := (live?_eq_some_iff.mp ((live key).trans alive)).1
        rw [sequenceAt, sequenceAt, here, there]

end Alike

end Folio.Store
