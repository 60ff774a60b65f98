import Folio.Proofs.Fields
import Folio.Json.Reader

/-!
# Values and what stands in them

The functions on values go through arrays and objects by functions of their own.  Here
these are given as statements about all items and all members, with an induction over
values that suits them.  A value is plain if it is one that the reader can give.
-/

namespace Folio

/-- Whether a number, if it is an integer, lies in the range of the reader. -/
def Number.InRange : Number → Prop
  | .integer value =>
      -(Decimal.twoTo 63 : Int) ≤ value ∧ value ≤ (Decimal.maxSignificand : Int)
  | .float _ _ => True

namespace Json

/-- What holds for the scalars, for an array if it holds for its items, and for an
object if it holds for the values of its members, holds for every value. -/
@[elab_as_elim]
theorem induction_values {motive : Json → Prop} (null : motive .null)
    (bool : ∀ truth, motive (.bool truth)) (number : ∀ number, motive (.number number))
    (string : ∀ text, motive (.string text))
    (array : ∀ items, (∀ item ∈ items, motive item) → motive (.array items))
    (object : ∀ members : List (String × Json), (∀ entry ∈ members, motive entry.2) →
      motive (.object members)) : (value : Json) → motive value
  | .null => null
  | .bool truth => bool truth
  | .number value => number value
  | .string text => string text
  | .array items => array items fun item _ =>
      induction_values null bool number string array object item
  | .object members => object members fun entry _ =>
      induction_values null bool number string array object entry.2
termination_by value => sizeOf value
decreasing_by
  · rename_i member
    have below := List.sizeOf_lt_of_mem member
    simp only [Json.array.sizeOf_spec]
    omega
  · rename_i member
    have below := List.sizeOf_lt_of_mem member
    have inner : sizeOf entry.2 < sizeOf entry := by
      rw [Prod.mk.sizeOf_spec]
      omega
    simp only [Json.object.sizeOf_spec]
    omega

/-! ## Depth -/

theorem depthItems_le_iff {items : List Json} {levels : Nat} :
    depthItems items ≤ levels ↔ ∀ item ∈ items, item.depth ≤ levels := by
  induction items with
  | nil => simp [depthItems]
  | cons item rest ih => rw [depthItems, Nat.max_le, ih, List.forall_mem_cons]

theorem depthMembers_le_iff {members : List (String × Json)} {levels : Nat} :
    depthMembers members ≤ levels ↔ ∀ entry ∈ members, entry.2.depth ≤ levels := by
  induction members with
  | nil => simp [depthMembers]
  | cons entry rest ih =>
      rcases entry with ⟨name, value⟩
      rw [depthMembers, Nat.max_le, ih, List.forall_mem_cons]

/-! ## Numbers -/

mutual

/-- The numbers in a value. -/
def numbers : Json → List Number
  | .number value => [value]
  | .array items => numbersInItems items
  | .object members => numbersInMembers members
  | _ => []
termination_by structural value => value

/-- The numbers in items. -/
def numbersInItems : List Json → List Number
  | [] => []
  | item :: rest => numbers item ++ numbersInItems rest
termination_by structural items => items

/-- The numbers in the values of members. -/
def numbersInMembers : List (String × Json) → List Number
  | [] => []
  | (_, value) :: rest => numbers value ++ numbersInMembers rest
termination_by structural members => members

end

theorem mem_numbersInItems {items : List Json} {number : Number} :
    number ∈ numbersInItems items ↔ ∃ item ∈ items, number ∈ item.numbers := by
  induction items with
  | nil => simp [numbersInItems]
  | cons item rest ih => simp [numbersInItems, ih]

theorem mem_numbersInMembers {members : List (String × Json)} {number : Number} :
    number ∈ numbersInMembers members ↔ ∃ entry ∈ members, number ∈ entry.2.numbers := by
  induction members with
  | nil => simp [numbersInMembers]
  | cons entry rest ih =>
      rcases entry with ⟨name, value⟩
      simp [numbersInMembers, ih]

/-! ## Plain values -/

/-- Whether the members of an object embed a text, were they to be read. -/
def Embeds (members : List (String × Json)) : Prop :=
  members.head?.map Prod.fst = some Reader.embeddingName

instance (members : List (String × Json)) : Decidable (Embeds members) :=
  inferInstanceAs (Decidable (_ = _))

mutual

/-- Whether every object in a value binds each name once, none embeds a text, and every
integer is in range. -/
def Plain : Json → Prop
  | .number value => value.InRange
  | .array items => PlainItems items
  | .object members => (Fields.names members).Nodup ∧ ¬ Embeds members ∧ PlainMembers members
  | _ => True
termination_by structural value => value

/-- Whether every item is plain. -/
def PlainItems : List Json → Prop
  | [] => True
  | item :: rest => Plain item ∧ PlainItems rest
termination_by structural items => items

/-- Whether the value of every member is plain. -/
def PlainMembers : List (String × Json) → Prop
  | [] => True
  | (_, value) :: rest => Plain value ∧ PlainMembers rest
termination_by structural members => members

end

theorem plainItems_iff {items : List Json} : PlainItems items ↔ ∀ item ∈ items, item.Plain := by
  induction items with
  | nil => simp [PlainItems]
  | cons item rest ih => simp [PlainItems, ih]

theorem plainMembers_iff {members : List (String × Json)} :
    PlainMembers members ↔ ∀ entry ∈ members, entry.2.Plain := by
  induction members with
  | nil => simp [PlainMembers]
  | cons entry rest ih =>
      rcases entry with ⟨name, value⟩
      simp [PlainMembers, ih]

end Json

end Folio
