import Folio.Proofs.Store.Write
import Folio.Store.Access

/-!
# Stores around a store

Every store that a collection works on keeps its documents in a plain store, whatever else it
does: it may write a journal first, or make calls fail.  What its calls do to the documents is
said here once, and with it what the calls for other documents leave as it was.
-/

namespace Folio

/-- A store that keeps its documents in a plain store.  Looking a document up changes none of
them.  A write that is acknowledged is a write into the plain store, and one that is refused
changes nothing there. -/
class Layered (σ : Type) [DocumentStore σ] where
  plain : σ → Store
  get (store : σ) (key : String) : plain (DocumentStore.get store key).2 = plain store
  insert (store : σ) (document : Json) (key : String) :
    match DocumentStore.insert store document key with
    | (.ok ack, next) => (plain store).insert document key = .ok (ack, plain next)
    | (.error _, next) => plain next = plain store

instance : Layered Store where
  plain store := store
  get _ _ := rfl
  insert store document key := by
    simp only [DocumentStore.insert]
    cases store.insert document key <;> rfl

/-- The journal of a durable store takes every write that its store accepts. -/
instance : Layered DurableStore where
  plain durable := durable.store
  get _ _ := rfl
  insert durable document key := by
    simp only [DocumentStore.insert, DurableStore.insert, Store.insert, Journal.append,
      Bool.false_eq_true, if_false]
    cases durable.store.revise document key <;> rfl

instance : Layered FaultyStore where
  plain faulty := faulty.store
  get faulty key := by
    simp only [DocumentStore.get]
    cases faulty.pending.get <;> rfl
  insert faulty document key := by
    simp only [DocumentStore.insert]
    cases faulty.pending.insert with
    | some error => rfl
    | none => cases faulty.store.insert document key <;> rfl

variable {σ : Type} [DocumentStore σ]

section Insert

variable [Layered σ] {store next : σ} {document : Json} {key : String}

theorem Layered.insert_eq_ok {ack : Ack}
    (acknowledged : DocumentStore.insert store document key = (.ok ack, next)) :
    (Layered.plain store).insert document key = .ok (ack, Layered.plain next) := by
  have law := Layered.insert store document key
  rwa [acknowledged] at law

theorem Layered.plain_of_refused {error : StoreError}
    (refused : DocumentStore.insert store document key = (.error error, next)) :
    Layered.plain next = Layered.plain store := by
  have law := Layered.insert store document key
  rwa [refused] at law

end Insert

/-- A property of stores is beside a key if it outlasts every call but those for the document
under the key. -/
structure Beside (key : String) (holds : σ → Prop) : Prop where
  get {store : σ} {other : String} (different : other ≠ key) (before : holds store) :
    holds (DocumentStore.get store other).2
  insert {store : σ} (document : Json) {other : String} (different : other ≠ key)
    (before : holds store) : holds (DocumentStore.insert store document other).2

/-- What stands under a key is beside the key. -/
theorem Layered.beside [Layered σ] (key : String) (held : Option Json) :
    Beside key fun store : σ => (Layered.plain store).current? key = held where
  get _ before := by rwa [Layered.get]
  insert {store} document {other} different before := by
    rcases answer : DocumentStore.insert store document other with ⟨error | ack, next⟩
    · rwa [Layered.plain_of_refused answer]
    · rcases Store.exists_of_insert_eq_ok (Layered.insert_eq_ok answer) with
        ⟨members, sequence, _, placed⟩
      rwa [placed, Store.current?_place_of_ne different.symm]

end Folio
