import Folio.Proofs.Fields.Alike
import Folio.Proofs.Json.Values

/-!
# Equality of values

Equality goes through arrays item by item and through objects name by name.  Here it is
given as statements about all items and all members.  A value in which no object repeats a
name equals itself, and an object equals every other one with the same members in another
order.
-/

namespace Folio

theorem Number.same_self (number : Number) : number.same number = true := by
  cases number <;> simp [Number.same]

namespace Json

theorem sameItems_iff {items others : List Json} :
    sameItems items others = true ↔
      List.Forall₂ (fun item other => item.same other) items others := by
  induction items generalizing others with
  | nil => cases others <;> simp [sameItems]
  | cons item rest ih => cases others <;> simp [sameItems, ih]

theorem sameMembers_iff {members others : Fields Json} :
    sameMembers members others = true ↔
      ∀ entry ∈ members, ∃ other, Fields.get? others entry.1 = some other ∧ entry.2.same other := by
  induction members with
  | nil => simp [sameMembers]
  | cons entry rest ih =>
      rcases entry with ⟨name, value⟩
      rw [sameMembers, Bool.and_eq_true, ih, List.forall_mem_cons]
      cases Fields.get? others name <;> simp

theorem same_object_iff {members others : Fields Json} (distinct : (Fields.names members).Nodup)
    (distinctToo : (Fields.names others).Nodup) :
    (object members).same (object others) = true ↔
      Fields.Alike (fun value other => value.same other = true) members others := by
  rw [same, Bool.and_eq_true, beq_iff_eq, sameMembers_iff,
    Fields.alike_iff_length_eq_and_forall _ distinct distinctToo]

theorem wellFormedItems_iff {items : List Json} :
    WellFormedItems items ↔ ∀ item ∈ items, item.WellFormed := by
  induction items with
  | nil => simp [WellFormedItems]
  | cons item rest ih => simp [WellFormedItems, ih]

theorem wellFormedMembers_iff {members : Fields Json} :
    WellFormedMembers members ↔ ∀ entry ∈ members, entry.2.WellFormed := by
  induction members with
  | nil => simp [WellFormedMembers]
  | cons entry rest ih =>
      rcases entry with ⟨name, value⟩
      simp [WellFormedMembers, ih]

theorem wellFormed_of_member? {document value : Json} (wellFormed : document.WellFormed)
    {name : String} (bound : document.member? name = some value) : value.WellFormed := by
  rcases member?_eq_some_iff.mp bound with ⟨members, rfl, found⟩
  rw [WellFormed, wellFormedMembers_iff] at wellFormed
  exact wellFormed.2 _ (Fields.mem_of_get?_eq_some found)

/-- What is bound among the members of a document is such a value; only an object has any. -/
theorem wellFormed_of_get? {document value : Json} (wellFormed : document.WellFormed)
    {name : String} (bound : Fields.get? (document.object?.getD []) name = some value) :
    value.WellFormed := by
  cases document with
  | object members => exact wellFormed_of_member? wellFormed bound
  | null => contradiction
  | bool _ => contradiction
  | number _ => contradiction
  | string _ => contradiction
  | array _ => contradiction

theorem wellFormed_put {members : Fields Json} (wellFormed : (object members).WellFormed)
    (name : String) {value : Json} (inner : value.WellFormed) :
    (object (Fields.put members name value)).WellFormed := by
  rw [WellFormed, wellFormedMembers_iff] at wellFormed ⊢
  constructor
  · exact Fields.nodup_names_put wellFormed.1 name value
  · intro entry member
    rcases Fields.mem_of_mem_put member with rfl | old
    · exact inner
    · exact wellFormed.2 entry old

theorem wellFormed_erase {members : Fields Json} (wellFormed : (object members).WellFormed)
    (name : String) : (object (Fields.erase members name)).WellFormed := by
  rw [WellFormed, wellFormedMembers_iff] at wellFormed ⊢
  exact ⟨(Fields.nodup_names_erase wellFormed.1 name).2,
    fun entry member => wellFormed.2 entry (Fields.mem_of_mem_erase member)⟩

/-- A value in which no object repeats a name equals itself. -/
theorem same_self {value : Json} (wellFormed : value.WellFormed) : value.same value = true := by
  induction value using induction_values with
  | null => rfl
  | bool truth => simp [same]
  | number number => exact number.same_self
  | string text => simp [same]
  | array items ih =>
      rw [WellFormed, wellFormedItems_iff] at wellFormed
      rw [same, sameItems_iff, List.forall₂_same]
      exact fun item member => ih item member (wellFormed item member)
  | object members ih =>
      rw [WellFormed, wellFormedMembers_iff] at wellFormed
      rw [same, beq_self_eq_true, Bool.true_and, sameMembers_iff]
      intro entry member
      exact ⟨entry.2, (Fields.get?_eq_some_iff_mem wellFormed.1).mpr member,
        ih entry member (wellFormed.2 entry member)⟩

theorem wellFormed_of_perm {members others : Fields Json} (wellFormed : (object members).WellFormed)
    (permuted : others.Perm members) : (object others).WellFormed := by
  rw [WellFormed, wellFormedMembers_iff] at wellFormed ⊢
  exact ⟨(permuted.map Prod.fst).nodup_iff.mpr wellFormed.1,
    fun entry member => wellFormed.2 entry (permuted.subset member)⟩

/-- An object equals every other one with the same members in another order. -/
theorem same_of_perm {members others : Fields Json} (wellFormed : (object members).WellFormed)
    (permuted : others.Perm members) : (object members).same (object others) = true := by
  have permutedFormed := wellFormed_of_perm wellFormed permuted
  rw [WellFormed, wellFormedMembers_iff] at wellFormed
  rw [WellFormed] at permutedFormed
  rw [same, permuted.length_eq, beq_self_eq_true, Bool.true_and, sameMembers_iff]
  intro entry member
  exact ⟨entry.2,
    (Fields.get?_eq_some_iff_mem permutedFormed.1).mpr (permuted.symm.subset member),
    same_self (wellFormed.2 entry member)⟩

end Json

end Folio
