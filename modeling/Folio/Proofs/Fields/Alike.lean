import Folio.Proofs.Fields
import Mathlib.Data.List.Forall2
import Mathlib.Data.List.Perm.Subperm

/-!
# Fields that are bound alike

Two lists of fields are compared in three ways: by looking every name up in both; by looking
the entries of the first one up in the second one, which has to be as long; and entry by
entry, when the second one is put in the order of the first one.  While the names of each
list are distinct, the three are the same, whatever is asked of two values that belong
together.  The second way looks one-sided and is not, because as many distinct names among
others are all of them.
-/

namespace Folio.Fields

variable {α β γ : Type} {like : α → β → Prop} {fields : Fields α} {others : Fields β}

/-! ## Looking every name up -/

/-- Whether every name is bound in both lists, alike, or in neither. -/
def Alike (like : α → β → Prop) (fields : Fields α) (others : Fields β) : Prop :=
  ∀ name, Option.Rel like (get? fields name) (get? others name)

/-- What one list binds the other one binds alike. -/
theorem Alike.exists_of_get? (bound : Alike like fields others) {name : String} {value : α}
    (here : get? fields name = some value) :
    ∃ other, get? others name = some other ∧ like value other := by
  have related := bound name
  rw [here] at related
  generalize get? others name = there at related ⊢
  cases related with
  | some related => exact ⟨_, rfl, related⟩

theorem Alike.flip (bound : Alike like fields others) :
    Alike (fun other value => like value other) others fields := by
  intro name
  have related := bound name
  generalize get? fields name = here, get? others name = there at related ⊢
  cases related with
  | none => exact .none
  | some related => exact .some related

/-- What one list does not bind the other one does not bind. -/
theorem Alike.get?_eq_none (bound : Alike like fields others) {name : String}
    (here : get? fields name = none) : get? others name = none := by
  cases there : get? others name with
  | none => rfl
  | some other =>
      rcases bound.flip.exists_of_get? there with ⟨value, found, _⟩
      rw [here] at found
      contradiction

theorem Alike.mem_names_iff (bound : Alike like fields others) (name : String) :
    name ∈ names fields ↔ name ∈ names others := by
  rw [← not_iff_not, ← get?_eq_none_iff, ← get?_eq_none_iff]
  exact ⟨bound.get?_eq_none, bound.flip.get?_eq_none⟩

/-- What is alike one way is alike another way, if that holds for the values of each name. -/
theorem Alike.imp {similar : α → β → Prop} (bound : Alike like fields others)
    (each : ∀ name value other, get? fields name = some value → get? others name = some other →
      like value other → similar value other) : Alike similar fields others := by
  intro name
  cases here : get? fields name with
  | none =>
      rw [bound.get?_eq_none here]
      exact .none
  | some value =>
      rcases bound.exists_of_get? here with ⟨other, there, related⟩
      rw [there]
      exact .some (each name value other here there related)

/-- Lists that are alike with one list are alike with one another, if that holds for the
values of each name. -/
theorem Alike.trans {more : Fields γ} {likeToo : β → γ → Prop} {similar : α → γ → Prop}
    (bound : Alike like fields others) (onward : Alike likeToo others more)
    (each : ∀ name value other last, get? fields name = some value →
      get? others name = some other → get? more name = some last →
      like value other → likeToo other last → similar value last) : Alike similar fields more := by
  intro name
  cases here : get? fields name with
  | none =>
      rw [onward.get?_eq_none (bound.get?_eq_none here)]
      exact .none
  | some value =>
      rcases bound.exists_of_get? here with ⟨other, there, related⟩
      rcases onward.exists_of_get? there with ⟨last, behind, relatedToo⟩
      rw [behind]
      exact .some (each name value other last here there behind related relatedToo)

theorem alike_self {like : α → α → Prop}
    (each : ∀ name value, get? fields name = some value → like value value) :
    Alike like fields fields := by
  intro name
  cases here : get? fields name with
  | none => exact .none
  | some value => exact .some (each name value here)

/-! ## Looking the entries of one list up -/

theorem names_perm_of_subset (distinct : (names fields).Nodup)
    (inside : names fields ⊆ names others) (short : others.length ≤ fields.length) :
    (names fields).Perm (names others) := by
  apply (List.subperm_of_subset distinct inside).perm_of_length_le
  simpa [names] using short

/-- Names are bound alike when there are equally many and the entries of one list are found in
the other one. -/
theorem alike_iff_length_eq_and_forall (like : α → β → Prop) (distinct : (names fields).Nodup)
    (distinctToo : (names others).Nodup) :
    Alike like fields others ↔ fields.length = others.length ∧
      ∀ entry ∈ fields, ∃ other, get? others entry.1 = some other ∧ like entry.2 other := by
  constructor
  · intro bound
    constructor
    · have same := (List.perm_ext_iff_of_nodup distinct distinctToo).mpr bound.mem_names_iff
      simpa [names] using same.length_eq
    · intro entry member
      exact bound.exists_of_get? ((get?_eq_some_iff_mem distinct).mpr member)
  · rintro ⟨length, each⟩ name
    have inside : names fields ⊆ names others := by
      intro key member
      rcases List.mem_map.mp member with ⟨entry, present, rfl⟩
      rcases each entry present with ⟨other, there, _⟩
      rw [← get?_isSome_iff, there]
      rfl
    have same := names_perm_of_subset distinct inside (Nat.le_of_eq length.symm)
    cases here : get? fields name with
    | some value =>
        rcases each _ (mem_of_get?_eq_some here) with ⟨other, there, related⟩
        rw [there]
        exact .some related
    | none =>
        rw [get?_eq_none_iff, same.mem_iff, ← get?_eq_none_iff] at here
        rw [here]
        exact .none

/-! ## Entry by entry -/

/-- Whether two lists have the same names in the same order, bound alike. -/
def Aligned (like : α → β → Prop) (fields : Fields α) (others : Fields β) : Prop :=
  List.Forall₂ (fun entry other => entry.1 = other.1 ∧ like entry.2 other.2) fields others

theorem Aligned.names_eq (aligned : Aligned like fields others) : names fields = names others := by
  induction aligned with
  | nil => rfl
  | cons related _ ih => simpa [names] using ⟨related.1, ih⟩

theorem Aligned.alike (aligned : Aligned like fields others) : Alike like fields others := by
  intro name
  induction aligned with
  | nil => exact .none
  | @cons entry other _ _ related _ ih =>
      rcases entry with ⟨key, value⟩
      rcases other with ⟨otherKey, otherValue⟩
      rcases related with ⟨rfl, related⟩
      rw [get?_cons, get?_cons]
      split
      · exact .some related
      · exact ih

theorem exists_aligned
    (each : ∀ entry ∈ fields, ∃ other, get? others entry.1 = some other ∧ like entry.2 other) :
    ∃ found, Aligned like fields found ∧ ∀ entry ∈ found, get? others entry.1 = some entry.2 := by
  induction fields with
  | nil => exact ⟨[], .nil, List.forall_mem_nil _⟩
  | cons entry rest ih =>
      rw [List.forall_mem_cons] at each
      rcases each.1 with ⟨other, there, related⟩
      rcases ih each.2 with ⟨found, aligned, all⟩
      exact ⟨(entry.1, other) :: found, .cons ⟨rfl, related⟩ aligned,
        List.forall_mem_cons.mpr ⟨there, all⟩⟩

/-- Names are bound alike when the lists are alike entry by entry, in some order of the second
one. -/
theorem alike_iff_exists_aligned (distinct : (names fields).Nodup)
    (distinctToo : (names others).Nodup) :
    Alike like fields others ↔ ∃ middle, Aligned like fields middle ∧ middle.Perm others := by
  constructor
  · intro bound
    have each := ((alike_iff_length_eq_and_forall like distinct distinctToo).mp bound).2
    rcases exists_aligned each with ⟨middle, aligned, found⟩
    have distinctMiddle : (names middle).Nodup := aligned.names_eq ▸ distinct
    refine ⟨middle, aligned, perm_of_get? distinctToo distinctMiddle fun name => ?_⟩
    cases there : get? middle name with
    | some other => exact (found _ (mem_of_get?_eq_some there)).symm
    | none => exact (bound.get?_eq_none (aligned.alike.flip.get?_eq_none there)).symm
  · rintro ⟨middle, aligned, permuted⟩ name
    rw [← get?_of_perm distinctToo permuted]
    exact aligned.alike name

end Folio.Fields
