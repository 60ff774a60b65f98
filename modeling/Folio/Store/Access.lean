import Folio.Store.Durable

/-!
# Access to a store

A collection works on any store that answers three calls: the document under a
key, a write, and the rows of a view.  Each call may change the store, also when
it is refused.  Here are the store itself, the durable store, and a store some of
whose next calls are made to fail.
-/

namespace Folio

/-- The calls that a collection makes to its store. -/
class DocumentStore (σ : Type) where
  get : σ → (key : String) → Except StoreError Json × σ
  insert : σ → (document : Json) → (key : String) → Except StoreError Ack × σ
  view : σ → (collection view : String) → ViewOptions → Except StoreError (List ViewRow) × σ

instance : DocumentStore Store where
  get store key := (store.get key, store)
  insert store document key :=
    match store.insert document key with
    | .ok (ack, next) => (.ok ack, next)
    | .error error => (.error error, store)
  view store collection name options := (store.view collection name options, store)

instance : DocumentStore DurableStore where
  get durable key := (durable.store.get key, durable)
  insert durable document key :=
    match durable.insert false document key with
    | .ok (ack, next) => (.ok ack, next)
    | .error error => (.error error, durable)
  view durable collection name options :=
    (durable.store.view collection name options, durable)

/-- The answers that the next calls to a store are made to give. -/
structure Faults where
  get : Option StoreError := none
  insert : Option StoreError := none
  view : Option StoreError := none
  rows : Option (List ViewRow) := none
deriving Inhabited

/-- A store with faults that are pending.  A fault is spent by the first call
that it concerns, which then does not reach the store. -/
structure FaultyStore where
  store : Store
  pending : Faults := {}
deriving Inhabited

instance : DocumentStore FaultyStore where
  get faulty key :=
    match faulty.pending.get with
    | some error => (.error error, { faulty with pending.get := none })
    | none => (faulty.store.get key, faulty)
  insert faulty document key :=
    match faulty.pending.insert with
    | some error => (.error error, { faulty with pending.insert := none })
    | none =>
        match faulty.store.insert document key with
        | .ok (ack, next) => (.ok ack, { faulty with store := next })
        | .error error => (.error error, faulty)
  view faulty collection name options :=
    match faulty.pending.view with
    | some error => (.error error, { faulty with pending.view := none })
    | none =>
        match faulty.pending.rows with
        | some rows => (.ok rows, { faulty with pending.rows := none })
        | none => (faulty.store.view collection name options, faulty)

end Folio
