import Folio.Proofs.Fields
import Folio.Store.Basic

/-!
# What a store holds

A store is determined by what stands under each key.  The order of its entries is
no information of its own: two lists in ascending order of distinct keys are equal
as soon as they have the same members.
-/

namespace Folio

section Ascending

variable {α : Type} {entries others : List (String × α)}

/-- Keys in ascending order are distinct. -/
theorem nodup_names_of_ascending (ascending : entries.Pairwise fun a b => a.1 < b.1) :
    (Fields.names entries).Nodup := by
  rw [Fields.names, List.Nodup, List.pairwise_map]
  apply ascending.imp
  intro a b below same
  rw [same] at below
  exact String.lt_irrefl b.1 below

/-- Two lists in ascending order of keys with the same members are equal. -/
theorem eq_of_ascending_of_mem_iff (first : entries.Pairwise fun a b => a.1 < b.1)
    (second : others.Pairwise fun a b => a.1 < b.1)
    (same : ∀ entry, entry ∈ entries ↔ entry ∈ others) : entries = others := by
  have firstDistinct := (nodup_names_of_ascending first).of_map
  have secondDistinct := (nodup_names_of_ascending second).of_map
  have permuted := (List.perm_ext_iff_of_nodup firstDistinct secondDistinct).mpr same
  refine permuted.eq_of_pairwise ?_ first second
  intro a b _ _ below above
  exact absurd above (String.lt_asymm below)

end Ascending

/-! ## Putting a document under a key -/

@[simp]
theorem get?_placeUnder_self (key : String) (document : Json) (entries : List (String × Json)) :
    Fields.get? (placeUnder key document entries) key = some document := by
  induction entries with
  | nil => simp [placeUnder, Fields.get?]
  | cons entry rest ih =>
      rcases entry with ⟨other, old⟩
      by_cases equal : key = other
      · simp [placeUnder, equal, Fields.get?]
      · by_cases below : key < other
        · simp [placeUnder, equal, below, Fields.get?]
        · simp [placeUnder, equal, below, Fields.get?, Ne.symm equal, ih]

theorem get?_placeUnder_of_ne {key other : String} (different : other ≠ key) (document : Json)
    (entries : List (String × Json)) :
    Fields.get? (placeUnder key document entries) other = Fields.get? entries other := by
  induction entries with
  | nil => simp [placeUnder, Fields.get?, Ne.symm different]
  | cons entry rest ih =>
      rcases entry with ⟨first, old⟩
      by_cases equal : key = first
      · subst equal
        simp [placeUnder, Fields.get?, Ne.symm different]
      · by_cases below : key < first
        · simp [placeUnder, equal, below, Fields.get?, Ne.symm different]
        · simp [placeUnder, equal, below, Fields.get?, ih]

namespace Store

variable {store : Store}

/-- The entries of a store are what is found under the keys. -/
theorem mem_entries_iff {key : String} {document : Json} :
    (key, document) ∈ store.entries ↔ store.current? key = some document :=
  (Fields.get?_eq_some_iff_mem (nodup_names_of_ascending store.ascending)).symm

theorem eq_of_current?_eq {first second : Store}
    (same : ∀ key, first.current? key = second.current? key) : first = second := by
  have entries : first.entries = second.entries := by
    apply eq_of_ascending_of_mem_iff first.ascending second.ascending
    rintro ⟨key, document⟩
    rw [mem_entries_iff, mem_entries_iff, same key]
  cases first
  cases second
  simpa using entries

@[simp]
theorem current?_empty (key : String) : empty.current? key = none := rfl

@[simp]
theorem current?_place_self (store : Store) (key : String) (document : Json) :
    (store.place key document).current? key = some document :=
  get?_placeUnder_self key document store.entries

/-- Putting a document under a key leaves every other key as it was. -/
theorem current?_place_of_ne {key other : String} (different : other ≠ key) (document : Json) :
    (store.place key document).current? other = store.current? other :=
  get?_placeUnder_of_ne different document store.entries

/-- What is stored under a key is alive when it is there and not marked as deleted. -/
theorem live?_eq_some_iff {key : String} {document : Json} :
    store.live? key = some document ↔
      store.current? key = some document ∧ document.isDeleted = false := by
  rw [live?, Option.filter_eq_some_iff, Bool.not_eq_true']

theorem live?_place_self (store : Store) (key : String) {document : Json}
    (unmarked : document.isDeleted = false) :
    (store.place key document).live? key = some document :=
  live?_eq_some_iff.mpr ⟨current?_place_self store key document, unmarked⟩

/-- What is alive under a key depends only on what is stored there. -/
theorem live?_congr {first second : Store} {key : String}
    (same : first.current? key = second.current? key) : first.live? key = second.live? key := by
  rw [live?, live?, same]

end Store

end Folio
