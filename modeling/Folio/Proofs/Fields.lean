import Folio.Fields
import Mathlib.Data.List.Induction
import Mathlib.Data.List.Nodup

/-!
# The theory of named fields

Looking up, binding and erasing are described on lists that are put together from
a front that does not bind a name and a rest that does.  Binding entries one after
the other leaves each name where it stands first with the value that it has last.
Erasing a name permutes what is left, so among distinct names it takes away exactly
one.
-/

namespace Folio.Fields

variable {α : Type}

/-! ## Names -/

@[simp]
theorem names_nil : names ([] : Fields α) = [] := rfl

@[simp]
theorem names_cons (name : String) (value : α) (rest : Fields α) :
    names ((name, value) :: rest) = name :: names rest := rfl

@[simp]
theorem names_append (front rest : Fields α) :
    names (front ++ rest) = names front ++ names rest :=
  List.map_append

/-! ## Looking up -/

theorem get?_cons (key : String) (value : α) (rest : Fields α) (name : String) :
    get? ((key, value) :: rest) name = if key = name then some value else get? rest name := rfl

/-- A name is not bound exactly when it is not among the names. -/
theorem get?_eq_none_iff {fields : Fields α} {name : String} :
    get? fields name = none ↔ name ∉ names fields := by
  rw [← get?_isSome_iff, Bool.not_eq_true, Option.isSome_eq_false_iff, Option.isNone_iff_eq_none]

/-- What a name is bound to stands beside it. -/
theorem mem_of_get?_eq_some {fields : Fields α} {name : String} {value : α}
    (bound : get? fields name = some value) : (name, value) ∈ fields := by
  induction fields with
  | nil => simp at bound
  | cons entry rest ih =>
      rcases entry with ⟨key, first⟩
      by_cases equal : key = name
      · rw [get?_cons, if_pos equal, Option.some.injEq] at bound
        simp [equal, bound]
      · rw [get?_cons, if_neg equal] at bound
        exact List.mem_cons_of_mem _ (ih bound)

/-- Among distinct names every entry is found. -/
theorem get?_eq_some_iff_mem {fields : Fields α} (distinct : (names fields).Nodup)
    {name : String} {value : α} : get? fields name = some value ↔ (name, value) ∈ fields := by
  refine ⟨mem_of_get?_eq_some, fun member => ?_⟩
  induction fields with
  | nil => simp at member
  | cons entry rest ih =>
      rcases entry with ⟨key, first⟩
      rw [names_cons, List.nodup_cons] at distinct
      rcases List.mem_cons.mp member with same | later
      · cases same
        rw [get?_cons, if_pos rfl]
      · have different : key ≠ name := by
          rintro rfl
          exact distinct.1 (List.mem_map_of_mem (f := Prod.fst) later)
        rw [get?_cons, if_neg different]
        exact ih distinct.2 later

/-- The order of entries with distinct names has no say in what is found. -/
theorem get?_of_perm {fields others : Fields α} (distinct : (names fields).Nodup)
    (permuted : others.Perm fields) (name : String) : get? others name = get? fields name := by
  have stillDistinct : (names others).Nodup := (permuted.map Prod.fst).nodup_iff.mpr distinct
  ext value
  rw [get?_eq_some_iff_mem stillDistinct, get?_eq_some_iff_mem distinct, permuted.mem_iff]

theorem perm_of_get? {fields others : Fields α} (distinct : (names fields).Nodup)
    (distinctToo : (names others).Nodup) (same : ∀ name, get? others name = get? fields name) :
    others.Perm fields := by
  rw [List.perm_ext_iff_of_nodup (distinctToo.of_map _) (distinct.of_map _)]
  rintro ⟨name, value⟩
  rw [← get?_eq_some_iff_mem distinct, ← get?_eq_some_iff_mem distinctToo, same]

/-- A front that does not bind a name is passed over. -/
theorem get?_append_of_not_mem {front : Fields α} {name : String} (absent : name ∉ names front)
    (rest : Fields α) : get? (front ++ rest) name = get? rest name := by
  induction front with
  | nil => rfl
  | cons entry front ih =>
      rcases entry with ⟨key, value⟩
      rw [names_cons, List.mem_cons, not_or] at absent
      rw [List.cons_append, get?_cons, if_neg (Ne.symm absent.1), ih absent.2]

/-- Two names that are bound are two entries. -/
theorem two_le_length {fields : Fields α} {name other : String} (first : has fields name = true)
    (second : has fields other = true) (different : name ≠ other) : 2 ≤ fields.length := by
  rw [has, get?_isSome_iff] at first second
  cases fields with
  | nil => simp at first
  | cons entry rest =>
      rcases entry with ⟨key, value⟩
      cases rest with
      | nil =>
          rw [names_cons, names_nil, List.mem_singleton] at first second
          exact absurd (first.trans second.symm) different
      | cons next more => simp

/-! ## Binding -/

theorem put_cons (key : String) (old : α) (rest : Fields α) (name : String) (value : α) :
    put ((key, old) :: rest) name value =
      if key = name then (key, value) :: rest else (key, old) :: put rest name value := rfl

/-- Binding passes over a front that does not bind the name. -/
theorem put_append_of_not_mem {front : Fields α} {name : String} (absent : name ∉ names front)
    (rest : Fields α) (value : α) :
    put (front ++ rest) name value = front ++ put rest name value := by
  induction front with
  | nil => rfl
  | cons entry front ih =>
      rcases entry with ⟨key, old⟩
      rw [names_cons, List.mem_cons, not_or] at absent
      rw [List.cons_append, put_cons, if_neg (Ne.symm absent.1), ih absent.2, List.cons_append]

/-- A name that is not bound goes to the end. -/
theorem put_of_not_mem {fields : Fields α} {name : String} (absent : name ∉ names fields)
    (value : α) : put fields name value = fields ++ [(name, value)] := by
  simpa [put] using put_append_of_not_mem absent [] value

/-- Binding adds no entry but the new one. -/
theorem mem_of_mem_put {fields : Fields α} {name : String} {value : α} {entry : String × α}
    (member : entry ∈ put fields name value) : entry = (name, value) ∨ entry ∈ fields := by
  induction fields with
  | nil => exact .inl (List.mem_singleton.mp member)
  | cons first rest ih =>
      rcases first with ⟨key, old⟩
      rw [put_cons] at member
      split at member
      · rename_i equal
        rw [equal] at member
        rcases List.mem_cons.mp member with new | later
        · exact .inl new
        · exact .inr (List.mem_cons_of_mem _ later)
      · rcases List.mem_cons.mp member with same | later
        · exact .inr (same ▸ List.mem_cons_self)
        · exact (ih later).imp id (List.mem_cons_of_mem _)

/-- Binding keeps names distinct. -/
theorem nodup_names_put {fields : Fields α} (distinct : (names fields).Nodup) (name : String)
    (value : α) : (names (put fields name value)).Nodup := by
  rw [names_put]
  split
  · exact distinct
  · rename_i absent
    rw [List.nodup_append]
    refine ⟨distinct, List.nodup_singleton name, ?_⟩
    rintro other member _ last rfl
    exact absent (List.mem_singleton.mp last ▸ member)

theorem putAll_append {fields more : Fields α} (distinct : (names (fields ++ more)).Nodup) :
    putAll fields more = fields ++ more := by
  induction more generalizing fields with
  | nil => simp [putAll]
  | cons entry rest ih =>
      rcases entry with ⟨name, value⟩
      have absent : name ∉ names fields := by
        intro member
        rw [names_append] at distinct
        exact (List.nodup_append.mp distinct).2.2 name member name List.mem_cons_self rfl
      have onward := @ih (fields ++ [(name, value)]) (by simpa using distinct)
      rw [putAll, List.foldl_cons, put_of_not_mem absent]
      simpa [putAll] using onward

theorem putAll_nil {more : Fields α} (distinct : (names more).Nodup) : putAll [] more = more :=
  @putAll_append α [] more distinct

theorem putAll_concat (fields more : Fields α) (name : String) (value : α) :
    putAll fields (more ++ [(name, value)]) = put (putAll fields more) name value := by
  rw [putAll, List.foldl_concat, ← putAll]

theorem nodup_names_putAll {fields : Fields α} (distinct : (names fields).Nodup)
    (more : Fields α) : (names (putAll fields more)).Nodup := by
  induction more using List.reverseRecOn with
  | nil => exact distinct
  | append_singleton more entry ih =>
      rw [putAll_concat]
      exact nodup_names_put ih entry.1 entry.2

/-! ## What entries settle on -/

/-- Each name in the place where it stands first, with the value that it has last. -/
def settled (fields : Fields α) : Fields α :=
  (names fields).eraseDups.filterMap fun name =>
    (get? fields.reverse name).map fun value => (name, value)

/-- Lists that bind the same distinct names in the same order to the same values are the
same. -/
theorem eq_of_names_of_get? {first second : Fields α} (sameNames : names first = names second)
    (distinct : (names first).Nodup) (sameValues : ∀ name, get? first name = get? second name) :
    first = second := by
  induction first generalizing second with
  | nil =>
      cases second with
      | nil => rfl
      | cons entry rest => simp [names] at sameNames
  | cons entry rest ih =>
      cases second with
      | nil => simp [names] at sameNames
      | cons other others =>
          rcases entry with ⟨key, value⟩
          rcases other with ⟨name, found⟩
          rw [names_cons, names_cons, List.cons.injEq] at sameNames
          rcases sameNames with ⟨rfl, sameNames⟩
          rw [names_cons, List.nodup_cons] at distinct
          have here : value = found := by simpa [get?_cons] using sameValues key
          have later : rest = others := by
            refine ih sameNames distinct.2 fun name => ?_
            by_cases equal : key = name
            · subst equal
              rw [get?_eq_none_iff.mpr distinct.1, get?_eq_none_iff.mpr (sameNames ▸ distinct.1)]
            · simpa [get?_cons, equal] using sameValues name
          rw [here, later]

/-- Among entries made from names, a name has the value that was made for it. -/
theorem get?_filterMap {wanted : List String} {value? : String → Option α} {name : String}
    (member : name ∈ wanted) :
    get? (wanted.filterMap fun key => (value? key).map fun value => (key, value)) name =
      value? name := by
  induction wanted with
  | nil => simp at member
  | cons key rest ih =>
      cases found : value? key with
      | none =>
          simp only [List.filterMap_cons, found, Option.map_none]
          rcases List.mem_cons.mp member with rfl | later
          · rw [found, get?_eq_none_iff]
            intro bound
            simp [names, found] at bound
          · exact ih later
      | some value =>
          simp only [List.filterMap_cons, found, Option.map_some, get?_cons]
          by_cases equal : key = name
          · rw [if_pos equal, ← equal, found]
          · rw [if_neg equal]
            exact ih ((List.mem_cons.mp member).resolve_left (Ne.symm equal))

theorem names_filterMap {wanted : List String} {value? : String → Option α}
    (all : ∀ name ∈ wanted, (value? name).isSome) :
    names (wanted.filterMap fun key => (value? key).map fun value => (key, value)) = wanted := by
  induction wanted with
  | nil => rfl
  | cons key rest ih =>
      rw [List.forall_mem_cons] at all
      rcases Option.isSome_iff_exists.mp all.1 with ⟨value, found⟩
      simp only [List.filterMap_cons, found, Option.map_some, names_cons]
      rw [ih all.2]

theorem mem_names_reverse {fields : Fields α} {name : String} :
    name ∈ names fields.reverse ↔ name ∈ names fields := by
  rw [names, List.map_reverse, List.mem_reverse, ← names]

theorem names_settled (fields : Fields α) : names (settled fields) = (names fields).eraseDups := by
  apply names_filterMap
  intro name member
  rw [get?_isSome_iff, mem_names_reverse]
  exact List.mem_eraseDups.mp member

theorem get?_settled (fields : Fields α) (name : String) :
    get? (settled fields) name = get? fields.reverse name := by
  by_cases bound : name ∈ names fields
  · exact get?_filterMap (List.mem_eraseDups.mpr bound)
  · have absent : get? fields.reverse name = none := by
      rwa [get?_eq_none_iff, mem_names_reverse]
    rwa [absent, get?_eq_none_iff, names_settled, List.mem_eraseDups]

/-- Binding entries one after the other gives what they settle on. -/
theorem putAll_nil_eq_settled (fields : Fields α) : putAll [] fields = settled fields := by
  induction fields using List.reverseRecOn with
  | nil => rfl
  | append_singleton fields entry ih =>
      rcases entry with ⟨name, value⟩
      apply eq_of_names_of_get?
      · rw [putAll_concat, names_put, ih, names_settled, names_settled, names_append, names_cons,
          names_nil, List.eraseDups_append]
        by_cases bound : name ∈ names fields
        · simp [bound, List.removeAll]
        · simp [bound, List.removeAll, List.eraseDups_cons]
      · have none : (names ([] : Fields α)).Nodup := List.nodup_nil
        exact nodup_names_putAll none _
      · intro other
        rw [putAll_concat, ih, get?_settled, List.reverse_append, List.reverse_singleton,
          List.singleton_append, get?_cons]
        by_cases equal : name = other
        · rw [if_pos equal, ← equal, get?_put_self]
        · rw [if_neg equal, get?_put_of_ne _ _ (Ne.symm equal), get?_settled]

/-! ## Erasing -/

@[simp]
theorem closeGap_nil : closeGap ([] : Fields α) = [] := rfl

@[simp]
theorem closeGap_concat (rest : Fields α) (last : String × α) :
    closeGap (rest ++ [last]) = last :: rest := by
  simp [closeGap]

@[simp]
theorem closeGap_singleton (entry : String × α) : closeGap [entry] = [entry] := rfl

/-- Closing a gap permutes the entries. -/
theorem closeGap_perm (rest : Fields α) : (closeGap rest).Perm rest := by
  induction rest using List.reverseRecOn with
  | nil => rfl
  | append_singleton rest last _ =>
      rw [closeGap_concat]
      exact (List.perm_append_singleton last rest).symm

theorem erase_cons (key : String) (value : α) (rest : Fields α) (name : String) :
    erase ((key, value) :: rest) name =
      if key = name then closeGap rest else (key, value) :: erase rest name := rfl

/-- Erasing passes over a front that does not bind the name. -/
theorem erase_append_of_not_mem {front : Fields α} {name : String} (absent : name ∉ names front)
    (rest : Fields α) : erase (front ++ rest) name = front ++ erase rest name := by
  induction front with
  | nil => rfl
  | cons entry front ih =>
      rcases entry with ⟨key, old⟩
      rw [names_cons, List.mem_cons, not_or] at absent
      rw [List.cons_append, erase_cons, if_neg (Ne.symm absent.1), ih absent.2, List.cons_append]

theorem erase_append_cons {front : Fields α} {name : String} (absent : name ∉ names front)
    (value : α) (rest : Fields α) :
    erase (front ++ (name, value) :: rest) name = front ++ closeGap rest := by
  rw [erase_append_of_not_mem absent, erase_cons, if_pos rfl]

/-- Erasing a name that is not bound changes nothing. -/
theorem erase_of_not_mem {fields : Fields α} {name : String} (absent : name ∉ names fields) :
    erase fields name = fields := by
  simpa [erase] using erase_append_of_not_mem absent []

/-- Erasing a bound name takes one entry away and permutes the others. -/
theorem perm_cons_erase {fields : Fields α} {name : String} {value : α}
    (bound : get? fields name = some value) : ((name, value) :: erase fields name).Perm fields := by
  induction fields with
  | nil => simp at bound
  | cons entry rest ih =>
      rcases entry with ⟨key, first⟩
      by_cases equal : key = name
      · rw [get?_cons, if_pos equal, Option.some.injEq] at bound
        rw [erase_cons, if_pos equal, equal, bound]
        exact (closeGap_perm rest).cons _
      · rw [get?_cons, if_neg equal] at bound
        rw [erase_cons, if_neg equal]
        exact (List.Perm.swap _ _ _).trans ((ih bound).cons _)

theorem mem_of_mem_erase {fields : Fields α} {name : String} {entry : String × α}
    (member : entry ∈ erase fields name) : entry ∈ fields := by
  cases bound : get? fields name with
  | none => rwa [erase_of_not_mem (get?_eq_none_iff.mp bound)] at member
  | some value => exact (perm_cons_erase bound).subset (List.mem_cons_of_mem _ member)

/-- Erasing among distinct names leaves distinct names, without the erased one. -/
theorem nodup_names_erase {fields : Fields α} (distinct : (names fields).Nodup) (name : String) :
    name ∉ names (erase fields name) ∧ (names (erase fields name)).Nodup := by
  cases bound : get? fields name with
  | none =>
      have absent := get?_eq_none_iff.mp bound
      rw [erase_of_not_mem absent]
      exact ⟨absent, distinct⟩
  | some value =>
      have permuted := (perm_cons_erase bound).map Prod.fst
      exact List.nodup_cons.mp (permuted.nodup_iff.mpr distinct)

/-- Erasing one among distinct names leaves what the others are bound to. -/
theorem get?_erase {fields : Fields α} (distinct : (names fields).Nodup) (name other : String) :
    get? (erase fields name) other = if other = name then none else get? fields other := by
  have gone := (nodup_names_erase distinct name).1
  split
  · rename_i same
    rw [same, get?_eq_none_iff]
    exact gone
  · rename_i different
    cases bound : get? fields name with
    | none => rw [erase_of_not_mem (get?_eq_none_iff.mp bound)]
    | some value =>
        rw [← get?_of_perm distinct (perm_cons_erase bound), get?_cons, if_neg (Ne.symm different)]

/-- Erasing names one after the other leaves what all others are bound to. -/
theorem get?_foldl_erase (taken : List String) {fields : Fields α}
    (distinct : (names fields).Nodup) :
    (names (taken.foldl erase fields)).Nodup ∧ ∀ name,
      get? (taken.foldl erase fields) name = if name ∈ taken then none else get? fields name := by
  induction taken generalizing fields with
  | nil => exact ⟨distinct, fun name => (if_neg List.not_mem_nil).symm⟩
  | cons first rest ih =>
      rcases ih (nodup_names_erase distinct first).2 with ⟨stillDistinct, found⟩
      refine ⟨stillDistinct, fun name => ?_⟩
      rw [List.foldl_cons, found, get?_erase distinct]
      by_cases same : name = first <;> simp [same]

end Folio.Fields
