/-!
# Named fields in the order they were first written

A JSON object and a field selection are both lists of names bound to values in
which the order is part of what a reader sees.  This module holds the three
operations that the rest of the library performs on such lists.  Writing a name
that is already bound keeps its place; erasing a name moves the last entry into
the gap, so that no other entry changes places.
-/

namespace Folio

/-- Values bound to names, in the order in which the names were first written. -/
abbrev Fields (α : Type) := List (String × α)

namespace Fields

variable {α : Type}

/-- The value bound to a name: the first entry that carries the name counts. -/
def get? (fields : Fields α) (name : String) : Option α :=
  match fields with
  | [] => none
  | (key, value) :: rest => if key = name then some value else get? rest name

/-- Whether a name is bound. -/
def has (fields : Fields α) (name : String) : Bool :=
  (get? fields name).isSome

/-- The bound names in order. -/
def names (fields : Fields α) : List String :=
  fields.map Prod.fst

/-- Bind a name.  A name that is already bound keeps its place and takes the new
value; any other name goes to the end. -/
def put (fields : Fields α) (name : String) (value : α) : Fields α :=
  match fields with
  | [] => [(name, value)]
  | (key, old) :: rest =>
      if key = name then (key, value) :: rest else (key, old) :: put rest name value

/-- Close the gap that the first entry of a list leaves by moving the last of
the remaining entries into it. -/
def closeGap (rest : Fields α) : Fields α :=
  match rest.getLast? with
  | none => []
  | some last => last :: rest.dropLast

/-- Unbind a name; the last entry moves into the place that becomes free. -/
def erase (fields : Fields α) (name : String) : Fields α :=
  match fields with
  | [] => []
  | (key, value) :: rest =>
      if key = name then closeGap rest else (key, value) :: erase rest name

/-- Bind the entries of a second list one after the other. -/
def putAll (fields : Fields α) (more : Fields α) : Fields α :=
  more.foldl (fun sofar entry => put sofar entry.1 entry.2) fields

@[simp] theorem get?_nil (name : String) : get? ([] : Fields α) name = none := rfl

/-- Looking a name up right after binding it finds the new value. -/
@[simp] theorem get?_put_self (fields : Fields α) (name : String) (value : α) :
    get? (put fields name value) name = some value := by
  induction fields with
  | nil => simp [put, get?]
  | cons entry rest ih =>
      obtain ⟨key, old⟩ := entry
      by_cases equal : key = name <;> simp [put, get?, equal, ih]

/-- Binding one name leaves every other name as it was. -/
theorem get?_put_of_ne (fields : Fields α) {name other : String} (value : α)
    (different : other ≠ name) :
    get? (put fields name value) other = get? fields other := by
  induction fields with
  | nil => simp [put, get?, Ne.symm different]
  | cons entry rest ih =>
      obtain ⟨key, old⟩ := entry
      by_cases equal : key = name
      · subst equal
        simp [put, get?, Ne.symm different]
      · by_cases found : key = other
        · simp [put, get?, found, different]
        · simp [put, get?, equal, found, ih]

/-- A name is bound exactly when it is among the names. -/
theorem get?_isSome_iff (fields : Fields α) (name : String) :
    (get? fields name).isSome ↔ name ∈ names fields := by
  induction fields with
  | nil => simp [names]
  | cons entry rest ih =>
      obtain ⟨key, value⟩ := entry
      by_cases equal : key = name
      · simp [get?, names, equal]
      · have other : ¬ name = key := fun same => equal same.symm
        simp [get?, names, equal, other, ih] at ih ⊢

/-- Binding adds a name at the end, or nothing when the name is there. -/
theorem names_put (fields : Fields α) (name : String) (value : α) :
    names (put fields name value) =
      if name ∈ names fields then names fields else names fields ++ [name] := by
  induction fields with
  | nil => simp [put, names]
  | cons entry rest ih =>
      obtain ⟨key, old⟩ := entry
      by_cases equal : key = name
      · simp [put, names, equal]
      · have other : ¬ name = key := fun same => equal same.symm
        simp only [names] at ih
        by_cases bound : name ∈ List.map Prod.fst rest <;>
          simp_all [put, names]

end Fields

end Folio
