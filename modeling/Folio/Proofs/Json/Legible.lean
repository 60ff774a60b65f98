import Folio.Proofs.Json.Reread

/-!
# Which values are read back

A value is read back exactly when it is not too deep and all its numbers are read back,
and it is read back as it was exactly when the numbers are.  Names, strings and truth
values are never changed.
-/

namespace Folio.Json

open Reader

/-! ## Lists that are read element by element -/

section Lists

variable {α : Type}

theorem isSome_mapM_iff {β : Type} {read : α → Option β} {elements : List α} :
    (elements.mapM read).isSome ↔ ∀ element ∈ elements, (read element).isSome := by
  induction elements with
  | nil => simp
  | cons element rest ih =>
      rw [List.mapM_cons, List.forall_mem_cons, ← ih]
      cases read element <;> cases rest.mapM read <;> simp

theorem mapM_eq_self_iff {read : α → Option α} {elements : List α} :
    elements.mapM read = some elements ↔ ∀ element ∈ elements, read element = some element := by
  induction elements with
  | nil => simp
  | cons element rest ih =>
      rw [List.mapM_cons, List.forall_mem_cons, ← ih]
      cases read element <;> cases rest.mapM read <;> simp

theorem namedSpec_isSome {spec : String × Json → Option α} {entry : String × Json} :
    (namedSpec spec entry).isSome = (spec entry).isSome := by
  rw [namedSpec, Option.isSome_map]

theorem namedSpec_eq_self_iff {spec : String × Json → Option Json} {entry : String × Json} :
    namedSpec spec entry = some entry ↔ spec entry = some entry.2 := by
  rw [namedSpec, Option.map_eq_some_iff]
  constructor
  · rintro ⟨value, read, same⟩
    rw [read, ← same]
  · intro read
    exact ⟨entry.2, read, rfl⟩

end Lists

/-! ## Values -/

/-- Whether a value nests no deeper than so many levels and all its numbers have a
property. -/
def Within (levels : Nat) (property : Number → Prop) (value : Json) : Prop :=
  value.depth ≤ levels ∧ ∀ number ∈ value.numbers, property number

section Within

variable {levels : Nat} {property : Number → Prop}

theorem within_number {number : Number} :
    Within levels property (.number number) ↔ property number := by
  simp [Within, depth, numbers]

theorem within_array {items : List Json} :
    Within (levels + 1) property (.array items) ↔ ∀ item ∈ items, Within levels property item := by
  rw [Within, depth, numbers, Nat.add_le_add_iff_right, depthItems_le_iff]
  simp only [mem_numbersInItems]
  constructor
  · rintro ⟨shallow, numbers⟩ item member
    exact ⟨shallow item member, fun number inside => numbers number ⟨item, member, inside⟩⟩
  · intro each
    refine ⟨fun item member => (each item member).1, ?_⟩
    rintro number ⟨item, member, inside⟩
    exact (each item member).2 number inside

theorem within_object {members : List (String × Json)} :
    Within (levels + 1) property (.object members) ↔
      ∀ entry ∈ members, Within levels property entry.2 := by
  rw [Within, depth, numbers, Nat.add_le_add_iff_right, depthMembers_le_iff]
  simp only [mem_numbersInMembers]
  constructor
  · rintro ⟨shallow, numbers⟩ entry member
    exact ⟨shallow entry member, fun number inside => numbers number ⟨entry, member, inside⟩⟩
  · intro each
    refine ⟨fun entry member => (each entry member).1, ?_⟩
    rintro number ⟨entry, member, inside⟩
    exact (each entry member).2 number inside

end Within

/-- A value is read back exactly when there are levels enough and its numbers are read
back. -/
theorem reread?_isSome_iff {value : Json} {levels : Nat} :
    (value.reread? levels).isSome ↔ value.Within levels fun number => number.reread?.isSome := by
  induction value using induction_values generalizing levels with
  | null => simp [reread?, Within, depth, numbers]
  | bool truth => simp [reread?, Within, depth, numbers]
  | number number => rw [reread?, Option.isSome_map, within_number]
  | string text => simp [reread?, Within, depth, numbers]
  | array items ih =>
      cases levels with
      | zero => simp [reread?, Within, depth]
      | succ levels =>
          rw [reread?, Option.isSome_map, rereadItems?_eq_mapM, isSome_mapM_iff, within_array]
          exact forall₂_congr fun item member => ih item member
  | object members ih =>
      cases levels with
      | zero => simp [reread?, Within, depth]
      | succ levels =>
          rw [reread?, Option.isSome_map, rereadMembers?_eq_mapM, isSome_mapM_iff, within_object]
          simp only [namedSpec_isSome]
          exact forall₂_congr fun entry member => ih entry member

/-- A value is read back as it was exactly when there are levels enough and its numbers
are read back as they were. -/
theorem reread?_eq_self_iff {value : Json} {levels : Nat} :
    value.reread? levels = some value ↔
      value.Within levels fun number => number.reread? = some number := by
  induction value using induction_values generalizing levels with
  | null => simp [reread?, Within, depth, numbers]
  | bool truth => simp [reread?, Within, depth, numbers]
  | number number => simp [reread?, within_number]
  | string text => simp [reread?, Within, depth, numbers]
  | array items ih =>
      cases levels with
      | zero => simp [reread?, Within, depth]
      | succ levels =>
          have whole : reread? (levels + 1) (.array items) = some (.array items) ↔
              items.mapM (reread? levels) = some items := by
            rw [reread?, rereadItems?_eq_mapM, Option.map_eq_some_iff]
            simp
          rw [whole, mapM_eq_self_iff, within_array]
          exact forall₂_congr fun item member => ih item member
  | object members ih =>
      cases levels with
      | zero => simp [reread?, Within, depth]
      | succ levels =>
          have whole : reread? (levels + 1) (.object members) = some (.object members) ↔
              members.mapM (namedSpec fun entry => reread? levels entry.2) = some members := by
            rw [reread?, rereadMembers?_eq_mapM, Option.map_eq_some_iff]
            simp
          rw [whole, mapM_eq_self_iff, within_object]
          simp only [namedSpec_eq_self_iff]
          exact forall₂_congr fun entry member => ih entry member

/-- A plain value that does not nest too deep and whose numbers are read back as they
were is read back from its text. -/
theorem read?_text {value : Json} (plain : value.Plain)
    (within : value.Within maxLevels fun number => number.reread? = some number) :
    Json.read? value.text = some value := by
  have follows : Follows (valueWith (Reader.whole value.chars.length) .keep maxLevels) value
      (value.reread? maxLevels) := follows_reread? plain maxLevels
  have alone := follows [] delimited_nil
  rw [reread?_eq_self_iff.mpr within, List.append_nil] at alone
  have given : leading value.chars = .ok (value, []) := by
    rw [leading, Reader.value]
    cases run : valueWith (Reader.whole value.chars.length) .keep maxLevels value.chars with
    | error error =>
        rw [run] at alone
        contradiction
    | ok parsed =>
        rw [run] at alone
        cases alone
        rfl
  rw [read?, Json.read, text, String.toList_ofList, given]
  rfl

/-! ## What is kept -/

/-- Strings and truth values are kept, and nothing else becomes one. -/
theorem string?_of_reread? {value read : Json} {levels : Nat}
    (reread : value.reread? levels = some read) :
    read.string? = value.string? ∧ read.bool? = value.bool? := by
  cases value with
  | null | bool truth | string text =>
      cases levels <;> (cases reread; exact ⟨rfl, rfl⟩)
  | number number =>
      have number_eq : reread? levels (.number number) = number.reread?.map .number := by
        cases levels <;> rfl
      rw [number_eq, Option.map_eq_some_iff] at reread
      rcases reread with ⟨value, _, rfl⟩
      exact ⟨rfl, rfl⟩
  | array items =>
      cases levels with
      | zero => contradiction
      | succ levels =>
          rw [reread?, Option.map_eq_some_iff] at reread
          rcases reread with ⟨values, _, rfl⟩
          exact ⟨rfl, rfl⟩
  | object members =>
      cases levels with
      | zero => contradiction
      | succ levels =>
          rw [reread?, Option.map_eq_some_iff] at reread
          rcases reread with ⟨entries, _, rfl⟩
          exact ⟨rfl, rfl⟩

/-- A member is what the member was read as. -/
theorem get?_of_mapM_namedSpec {spec : String × Json → Option Json}
    {members entries : List (String × Json)} (read : members.mapM (namedSpec spec) = some entries)
    (name : String) :
    Fields.get? entries name = (Fields.get? members name).bind fun value => spec (name, value) := by
  induction members generalizing entries with
  | nil =>
      cases read
      rfl
  | cons entry rest ih =>
      rcases mapM_namedSpec_cons_eq_some_iff.mp read with ⟨value, values, first, others, rfl⟩
      rcases entry with ⟨key, old⟩
      rw [Fields.get?_cons, Fields.get?_cons, ih others]
      split
      · rename_i same
        rw [Option.bind_some, ← same, first]
      · rfl

/-- Members of an object that are strings or truth values are kept. -/
theorem member?_of_reread? {members : List (String × Json)} {read : Json} {levels : Nat}
    (reread : reread? levels (.object members) = some read) (name : String) :
    (read.member? name).bind string? = (Fields.get? members name).bind string? ∧
      (read.member? name).bind bool? = (Fields.get? members name).bind bool? := by
  cases levels with
  | zero => contradiction
  | succ levels =>
      rw [reread?, rereadMembers?_eq_mapM, Option.map_eq_some_iff] at reread
      rcases reread with ⟨entries, read, rfl⟩
      rw [member?, get?_of_mapM_namedSpec read name]
      cases present : Fields.get? members name with
      | none => exact ⟨rfl, rfl⟩
      | some value =>
          -- The object was read, so the value of the member was read too.
          cases inner : value.reread? levels with
          | none =>
              have all := isSome_mapM_iff.mp (by rw [read]; rfl)
              have here := all _ (Fields.mem_of_get?_eq_some present)
              rw [namedSpec_isSome, inner] at here
              contradiction
          | some value' =>
              simp only [Option.bind_some, inner]
              exact string?_of_reread? inner

end Folio.Json
