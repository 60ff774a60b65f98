import Folio.Proofs.Store.Discipline
import Mathlib.Data.List.FinRange
import Mathlib.Logic.Equiv.Basic

/-!
# Writes that commute

A write reads and changes only what stands under its key.  So a run of writes may be put
into another order, as long as the writes under each key stay in theirs: every write is
answered as before, and the store that is left is the same.
-/

namespace Folio.Store

/-- A run of writes in another order.  Every write has its place there, and writes under
one key stay in order. -/
structure Rearrangement (first second : List Write) where
  place : Fin first.length ≃ Fin second.length
  same : ∀ i, second[place i] = first[i]
  ordered : ∀ i j, first[i].key = first[j].key → i < j → place i < place j

/-! ## A write sees its own key only -/

section Frame

variable {first second : Store} {key : String}

/-- A document put under a key makes no difference between stores that agree on another
one. -/
theorem current?_place_congr (same : first.current? key = second.current? key) (other : String)
    (document : Json) :
    (first.place other document).current? key = (second.place other document).current? key := by
  by_cases equal : key = other
  · rw [equal, current?_place_self, current?_place_self]
  · rw [current?_place_of_ne equal, current?_place_of_ne equal, same]

/-- What a write is answered, and what it leaves under its key, depends only on what stood
there. -/
theorem insert_congr (same : first.current? key = second.current? key) (document : Json) :
    (DocumentStore.insert first document key).1 = (DocumentStore.insert second document key).1 ∧
      (DocumentStore.insert first document key).2.current? key =
        (DocumentStore.insert second document key).2.current? key := by
  have revised : first.revise document key = second.revise document key :=
    revise_congr (live?_congr same) (by rw [same]) document
  simp only [DocumentStore.insert, insert, revised]
  cases second.revise document key with
  | error error => exact ⟨rfl, same⟩
  | ok revision => exact ⟨rfl, current?_place_congr same _ _⟩

/-- Writes under other keys have no part in what a run leaves under a key. -/
theorem current?_writes_congr (same : first.current? key = second.current? key)
    (writes : List Write) :
    (first.writes writes).2.current? key =
      (second.writes (writes.filter (·.key = key))).2.current? key := by
  -- The two stores part at the first write under another key; all that carries the
  -- induction is that they agree on this one.
  induction writes generalizing first second with
  | nil => exact same
  | cons write rest ih =>
      by_cases here : write.key = key
      · subst here
        rw [List.filter_cons_of_pos (by simp)]
        exact ih (insert_congr same write.document).2
      · rw [List.filter_cons_of_neg (by simpa using here)]
        exact ih ((current?_insert_of_ne (Ne.symm here) write.document).trans same)

end Frame

theorem current?_writes (store : Store) (key : String) (writes : List Write) :
    (store.writes writes).2.current? key =
      (store.writes (writes.filter (·.key = key))).2.current? key :=
  current?_writes_congr rfl writes

theorem getElem?_writes (store : Store) (writes : List Write) (i : Nat) :
    (store.writes writes).1[i]? = writes[i]?.map fun write =>
      (write, (DocumentStore.insert (store.writes (writes.take i)).2 write.document write.key).1) := by
  induction writes generalizing store i with
  | nil => rfl
  | cons write rest ih =>
      cases i with
      | zero => rfl
      | succ i => exact ih _ i

/-! ## Places of writes -/

theorem take_eq_map_filter {α : Type} (list : List α) (n : Nat) :
    list.take n = ((List.finRange list.length).filter (·.val < n)).map (list[·]) := by
  induction list generalizing n with
  | nil => simp
  | cons first rest ih =>
      cases n with
      | zero => simp
      | succ n => simp [List.finRange_succ, ih n, List.filter_map, Function.comp_def]

/-- The places of the writes under a key. -/
def placesOf (key : String) (writes : List Write) : List (Fin writes.length) :=
  (List.finRange writes.length).filter fun i => writes[i].key = key

theorem mem_placesOf_iff {key : String} {writes : List Write} {i : Fin writes.length} :
    i ∈ placesOf key writes ↔ writes[i].key = key := by
  simp [placesOf]

theorem pairwise_placesOf (key : String) (writes : List Write) :
    (placesOf key writes).Pairwise (· < ·) :=
  (List.pairwise_lt_finRange _).filter _

theorem filter_take_eq (key : String) (writes : List Write) (n : Nat) :
    (writes.take n).filter (·.key = key) =
      ((placesOf key writes).filter (·.val < n)).map (writes[·]) := by
  rw [take_eq_map_filter, List.filter_map, placesOf, List.filter_filter, List.filter_filter]
  simp [Bool.and_comm]

namespace Rearrangement

variable {first second : List Write} (moved : Rearrangement first second)
include moved

theorem place_lt_iff {i j : Fin first.length} (sameKey : first[i].key = first[j].key) :
    moved.place i < moved.place j ↔ i < j := by
  refine ⟨fun below => ?_, moved.ordered i j sameKey⟩
  by_cases less : i < j
  · exact less
  · rcases Fin.lt_or_eq_of_le (Fin.not_lt.mp less) with greater | rfl
    · exact absurd below (Fin.lt_asymm (moved.ordered j i sameKey.symm greater))
    · exact absurd below (Fin.lt_irrefl _)

/-- The places of the writes under a key are those that they had, moved. -/
theorem placesOf_eq (key : String) :
    placesOf key second = (placesOf key first).map moved.place := by
  have after : ((placesOf key first).map moved.place).Pairwise (· < ·) := by
    rw [List.pairwise_map]
    apply (pairwise_placesOf key first).imp_of_mem
    intro i j here there below
    exact moved.ordered i j
      ((mem_placesOf_iff.mp here).trans (mem_placesOf_iff.mp there).symm) below
  have members (i : Fin second.length) :
      i ∈ placesOf key second ↔ i ∈ (placesOf key first).map moved.place := by
    rw [List.mem_map, mem_placesOf_iff]
    constructor
    · intro here
      rcases moved.place.surjective i with ⟨j, rfl⟩
      rw [moved.same] at here
      exact ⟨j, mem_placesOf_iff.mpr here, rfl⟩
    · rintro ⟨j, here, rfl⟩
      rw [moved.same, mem_placesOf_iff.mp here]
  have permuted := (List.perm_ext_iff_of_nodup
    ((pairwise_placesOf key second).imp Fin.ne_of_lt) (after.imp Fin.ne_of_lt)).mpr members
  refine permuted.eq_of_pairwise ?_ (pairwise_placesOf key second) after
  intro i j _ _ below above
  exact absurd above (Fin.lt_asymm below)

theorem filter_take_place (i : Fin first.length) :
    (second.take (moved.place i)).filter (·.key = first[i].key) =
      (first.take i).filter (·.key = first[i].key) := by
  rw [filter_take_eq, filter_take_eq, moved.placesOf_eq, List.filter_map, List.map_map]
  have inFront : (placesOf first[i].key first).filter
        ((fun j => decide (j.val < (moved.place i).val)) ∘ moved.place) =
      (placesOf first[i].key first).filter (·.val < i.val) := by
    apply List.filter_congr
    intro j here
    exact decide_eq_decide.mpr (moved.place_lt_iff (mem_placesOf_iff.mp here))
  rw [inFront]
  exact List.map_congr_left fun j _ => moved.same j

theorem filter_eq (key : String) :
    second.filter (·.key = key) = first.filter (·.key = key) := by
  have whole (writes : List Write) :
      writes.filter (·.key = key) = (placesOf key writes).map (writes[·]) := by
    have all := filter_take_eq key writes writes.length
    rw [List.take_length] at all
    rw [all, List.filter_eq_self.mpr fun i _ => decide_eq_true i.isLt]
  rw [whole, whole, moved.placesOf_eq, List.map_map]
  exact List.map_congr_left fun i _ => moved.same i

end Rearrangement

/-- Whatever the store, every write of a run is answered as in any other order that keeps
the writes under each key in order, and the store that is left is the same. -/
theorem writes_commute (store : Store) {first second : List Write}
    (moved : Rearrangement first second) :
    (∀ i, ∃ answer, (store.writes first).1[i.val]? = some (first[i], answer) ∧
      (store.writes second).1[(moved.place i).val]? = some (first[i], answer)) ∧
    (store.writes first).2 = (store.writes second).2 := by
  constructor
  · intro i
    have before : (store.writes (first.take i)).2.current? first[i].key =
        (store.writes (second.take (moved.place i))).2.current? first[i].key := by
      rw [current?_writes, current?_writes store _ (second.take _), moved.filter_take_place]
    have answered := (insert_congr before first[i].document).1
    refine ⟨(DocumentStore.insert (store.writes (first.take i)).2 first[i].document
      first[i].key).1, ?_, ?_⟩
    · rw [getElem?_writes, List.getElem?_eq_getElem i.isLt]
      rfl
    · have moves : second[(moved.place i).val]? = some first[i] := by
        rw [List.getElem?_eq_getElem (moved.place i).isLt]
        exact congrArg some (moved.same i)
      rw [getElem?_writes, moves, Option.map_some, answered]
  · apply eq_of_current?_eq
    intro key
    rw [current?_writes, current?_writes store key second, moved.filter_eq]

/-- Two writes under one key, and one under another key that comes behind the first of them
instead of in front. -/
theorem writes_commute_tom_kit :
    let tom : Write := ⟨.object [], "tom"⟩
    let kit : Write := ⟨.object [], "kit"⟩
    (∃ answer, (empty.writes [kit, tom, tom]).1[2]? = some (tom, answer) ∧
      (empty.writes [tom, kit, tom]).1[2]? = some (tom, answer)) ∧
    (empty.writes [kit, tom, tom]).2 = (empty.writes [tom, kit, tom]).2 := by
  intro tom kit
  let moved : Rearrangement [kit, tom, tom] [tom, kit, tom] := {
    place := Equiv.swap (0 : Fin 3) 1
    same := fun i => match i with
      | 0 | 1 | 2 => rfl
    ordered := by decide }
  rcases writes_commute empty moved with ⟨answered, left⟩
  exact ⟨answered (2 : Fin 3), left⟩

end Folio.Store
