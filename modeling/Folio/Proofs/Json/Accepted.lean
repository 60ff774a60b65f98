import Folio.Proofs.Json.Numerals

/-!
# What the reader gives

Every value that is read from a text is plain: an object binds each of its names once,
an object that would embed a text is given as the value of that text, and every integer
is in range.
-/

namespace Folio.Json

open Text Reader

namespace Reader

/-- Whether all that a reader gives has a property. -/
def Gives {α : Type} (read : List Char → Attempt (Parsed α)) (property : α → Prop) : Prop :=
  ∀ chars value rest, read chars = .ok (value, rest) → property value

/-! ## Arrays -/

section Items

variable {α : Type} {item : List Char → Attempt (Parsed α)} {property : α → Prop}

theorem moreItems_gives (each : Gives item property) (steps : Nat) :
    Gives (moreItems item steps) fun values => ∀ value ∈ values, property value := by
  induction steps with
  | zero =>
      intro chars values rest read
      contradiction
  | succ steps ih =>
      intro chars values rest read
      rw [moreItems] at read
      split at read
      · contradiction
      split at read
      · cases read
        simp
      split at read
      · split at read
        · contradiction
        · contradiction
        · rcases bind_eq_ok_iff.mp read with ⟨⟨value, onward⟩, first, read⟩
          rcases bind_eq_ok_iff.mp read with ⟨⟨others, behind⟩, more, same⟩
          cases same
          exact List.forall_mem_cons.mpr ⟨each _ _ _ first, ih _ _ _ more⟩
      · contradiction

theorem items_gives (each : Gives item property) :
    Gives (items item) fun values => ∀ value ∈ values, property value := by
  intro chars values rest read
  rw [items] at read
  split at read
  · contradiction
  · cases read
    simp
  · rcases bind_eq_ok_iff.mp read with ⟨⟨value, onward⟩, first, read⟩
    rcases bind_eq_ok_iff.mp read with ⟨⟨others, behind⟩, more, same⟩
    cases same
    exact List.forall_mem_cons.mpr ⟨each _ _ _ first, moreItems_gives each _ _ _ _ more⟩

end Items

/-! ## Objects -/

section Members

variable {α : Type} {value : String → List Char → Attempt (Parsed α)} {property : α → Prop}

theorem namedMember_gives (each : ∀ name, Gives (value name) property) :
    Gives (namedMember .keep value) fun entry => property entry.2 := by
  intro chars entry rest read
  rcases bind_eq_ok_iff.mp read with ⟨⟨name, onward⟩, _, read⟩
  rcases bind_eq_ok_iff.mp read with ⟨onward, _, read⟩
  rcases bind_eq_ok_iff.mp read with ⟨⟨result, behind⟩, inner, same⟩
  cases same
  exact each _ _ _ _ inner

theorem moreMembers_gives (each : ∀ name, Gives (value name) property) (steps : Nat) :
    Gives (moreMembers .keep value steps) fun entries => ∀ entry ∈ entries, property entry.2 := by
  induction steps with
  | zero =>
      intro chars entries rest read
      contradiction
  | succ steps ih =>
      intro chars entries rest read
      rw [moreMembers] at read
      split at read
      · contradiction
      split at read
      · cases read
        simp
      split at read
      · split at read
        · contradiction
        · rcases bind_eq_ok_iff.mp read with ⟨⟨entry, onward⟩, first, read⟩
          rcases bind_eq_ok_iff.mp read with ⟨⟨others, behind⟩, more, same⟩
          cases same
          exact List.forall_mem_cons.mpr
            ⟨namedMember_gives each _ _ _ first, ih _ _ _ more⟩
        · contradiction
        · contradiction
      · contradiction

theorem members_gives (each : ∀ name, Gives (value name) property) :
    Gives (members .keep value) fun entries => ∀ entry ∈ entries, property entry.2 := by
  intro chars entries rest read
  rw [members] at read
  split at read
  · contradiction
  · cases read
    simp
  · rcases bind_eq_ok_iff.mp read with ⟨⟨entry, onward⟩, first, read⟩
    rcases bind_eq_ok_iff.mp read with ⟨⟨others, behind⟩, more, same⟩
    cases same
    exact List.forall_mem_cons.mpr
      ⟨namedMember_gives each _ _ _ first, moreMembers_gives each _ _ _ _ more⟩
  · contradiction

/-- The members of an object that is no embedding start with another name. -/
theorem not_embeds_of_embedding?_eq_none {chars rest : List Char}
    {value : String → List Char → Attempt (Parsed Json)} {entries : List (String × Json)}
    (noEmbedding : embedding? chars = none)
    (read : members .keep value chars = .ok (entries, rest)) : ¬ Embeds entries := by
  rw [members] at read
  rw [embedding?] at noEmbedding
  split at read
  · contradiction
  · cases read
    simp [Embeds]
  · rename_i start
    rcases bind_eq_ok_iff.mp read with ⟨⟨entry, onward⟩, first, read⟩
    rcases bind_eq_ok_iff.mp read with ⟨⟨others, behind⟩, more, same⟩
    cases same
    rcases bind_eq_ok_iff.mp first with ⟨⟨name, tail⟩, named, read⟩
    rcases bind_eq_ok_iff.mp read with ⟨onward, _, read⟩
    rcases bind_eq_ok_iff.mp read with ⟨⟨result, behind⟩, _, same⟩
    cases same
    rw [start] at noEmbedding
    simp only [named] at noEmbedding
    intro embeds
    rw [Embeds, List.head?_cons, Option.map_some, Option.some.injEq] at embeds
    rw [if_pos embeds] at noEmbedding
    contradiction
  · contradiction

end Members

end Reader

/-! ## Values -/

/-- Binding entries one after the other keeps the first name, binds each name once and
adds no value of its own. -/
theorem plainMembers_putAll {fields more : List (String × Json)}
    (distinct : (Fields.names fields).Nodup) (plain : ∀ entry ∈ fields, entry.2.Plain)
    (others : ∀ entry ∈ more, entry.2.Plain) :
    (Fields.names (Fields.putAll fields more)).Nodup ∧
      ∀ entry ∈ Fields.putAll fields more, entry.2.Plain := by
  induction more generalizing fields with
  | nil => exact ⟨distinct, plain⟩
  | cons entry rest ih =>
      rw [List.forall_mem_cons] at others
      refine ih (Fields.nodup_names_put distinct _ _) ?_ others.2
      intro bound member
      rcases Fields.mem_of_mem_put member with rfl | old
      · exact others.1
      · exact plain bound old

theorem embeds_putAll_iff {fields more : List (String × Json)} (nonempty : fields ≠ []) :
    Embeds (Fields.putAll fields more) ↔ Embeds fields := by
  induction more generalizing fields with
  | nil => rfl
  | cons entry rest ih =>
      cases fields with
      | nil => contradiction
      | cons first others =>
          have head : Embeds (Fields.put (first :: others) entry.1 entry.2) ↔
              Embeds (first :: others) := by
            rw [Fields.put_cons]
            split <;> rfl
          have some : Fields.put (first :: others) entry.1 entry.2 ≠ [] := by
            rw [Fields.put_cons]
            split <;> exact List.cons_ne_nil _ _
          exact (ih some).trans head

theorem plain_object_putAll {entries : List (String × Json)} (noText : ¬ Embeds entries)
    (plain : ∀ entry ∈ entries, entry.2.Plain) : Plain (.object (Fields.putAll [] entries)) := by
  have bound : (Fields.names (Fields.putAll [] entries)).Nodup ∧
      ∀ entry ∈ Fields.putAll [] entries, entry.2.Plain :=
    plainMembers_putAll List.nodup_nil (by simp) plain
  rw [Plain, plainMembers_iff]
  refine ⟨bound.1, ?_, bound.2⟩
  cases entries with
  | nil => exact noText
  | cons entry rest =>
      have first : Fields.putAll [] (entry :: rest) = Fields.putAll [entry] rest := rfl
      rw [first, embeds_putAll_iff (List.cons_ne_nil _ _)]
      exact noText

/-- A word gives the value that it stands for. -/
theorem word_gives (value : Json) (letters : List Char) :
    Gives (word value letters) (· = value) := by
  induction letters with
  | nil =>
      intro chars found rest read
      cases read
      rfl
  | cons letter letters ih =>
      intro chars found rest read
      cases chars with
      | nil => contradiction
      | cons c chars =>
          rw [word] at read
          split at read
          · exact ih _ _ _ read
          · contradiction

/-- A number is in range. -/
theorem number_gives (negative : Bool) : Gives (Reader.number .keep negative) Plain := by
  intro chars found rest read
  rcases bind_eq_ok_iff.mp read with ⟨⟨parts, onward⟩, _, read⟩
  rcases bind_eq_ok_iff.mp read with ⟨value, given, same⟩
  cases same
  rcases value_cases parts with ⟨number, inRange, worth⟩ | failed
  · rw [worth] at given
    cases given
    exact inRange
  · rcases failed rest with ⟨error, failed⟩
    rw [failed] at given
    contradiction

/-- A scalar is plain. -/
theorem scalar_gives : Gives (scalar .keep) Plain := by
  intro chars value rest read
  cases chars with
  | nil => contradiction
  | cons c chars =>
      rw [scalar] at read
      split at read
      · rw [word_gives _ _ _ _ _ read]
        trivial
      split at read
      · rw [word_gives _ _ _ _ _ read]
        trivial
      split at read
      · rw [word_gives _ _ _ _ _ read]
        trivial
      split at read
      · exact number_gives _ _ _ _ read
      split at read
      · exact number_gives _ _ _ _ read
      split at read
      · rcases bind_eq_ok_iff.mp read with ⟨⟨text, onward⟩, _, same⟩
        cases same
        trivial
      · contradiction

/-- An object that embeds a text has a colon, the text and a closing brace behind the name
of its member, and gives the value of the text. -/
theorem exists_of_embedded_eq_ok {whole : String → Attempt Json} {chars rest : List Char}
    {value : Json} (read : embedded whole chars = .ok (value, rest)) :
    ∃ first text second, colon chars = .ok first ∧ embeddedText first = .ok (text, second) ∧
      whole text = .ok value ∧ lastBrace second = .ok rest := by
  rcases bind_eq_ok_iff.mp read with ⟨first, parted, read⟩
  rcases bind_eq_ok_iff.mp read with ⟨⟨text, second⟩, quoted, read⟩
  rcases bind_eq_ok_iff.mp read with ⟨found, given, read⟩
  rcases bind_eq_ok_iff.mp read with ⟨third, closed, same⟩
  cases same
  refine ⟨first, text, second, parted, quoted, ?_, closed⟩
  cases inner : whole text with
  | error error =>
      rw [inner] at given
      contradiction
  | ok found =>
      rw [inner] at given
      exact given

/-- A value is plain if the embedded texts are. -/
theorem valueWith_gives {whole : String → Attempt Json}
    (texts : ∀ text value, whole text = .ok value → value.Plain) (levels : Nat) :
    Gives (valueWith whole .keep levels) Plain := by
  induction levels with
  | zero =>
      intro chars value rest read
      rw [valueWith] at read
      split at read
      · contradiction
      · contradiction
      · exact scalar_gives _ _ _ read
  | succ levels ih =>
      intro chars value rest read
      rw [valueWith] at read
      split at read
      · rcases bind_eq_ok_iff.mp read with ⟨⟨values, onward⟩, inner, same⟩
        cases same
        exact plainItems_iff.mpr (items_gives ih _ _ _ inner)
      · rename_i behind _
        cases embedding : embedding? behind with
        | some text =>
            rw [embedding] at read
            rcases exists_of_embedded_eq_ok read with ⟨_, text, _, _, _, given, _⟩
            exact texts text value given
        | none =>
            rw [embedding] at read
            rcases bind_eq_ok_iff.mp read with ⟨⟨entries, onward⟩, inner, same⟩
            cases same
            exact plain_object_putAll (not_embeds_of_embedding?_eq_none embedding inner)
              (members_gives (fun _ => ih) _ _ _ inner)
      · exact scalar_gives _ _ _ read

theorem plain_of_whole (texts : Nat) :
    ∀ text value, whole texts text = .ok value → value.Plain := by
  induction texts with
  | zero =>
      intro text value read
      contradiction
  | succ texts ih =>
      intro text value read
      rcases bind_eq_ok_iff.mp read with ⟨⟨found, onward⟩, inner, read⟩
      rcases bind_eq_ok_iff.mp read with ⟨_, _, same⟩
      cases same
      exact valueWith_gives ih _ _ _ _ inner

theorem plain_of_leading {chars rest : List Char} {value : Json}
    (read : leading chars = .ok (value, rest)) : value.Plain :=
  valueWith_gives (plain_of_whole _) _ _ _ _ read

theorem plain_of_read? {text : String} {value : Json} (read : Json.read? text = some value) :
    value.Plain := by
  rw [read?, toOption_eq_some_iff] at read
  rcases bind_eq_ok_iff.mp read with ⟨⟨found, rest⟩, given, read⟩
  rcases bind_eq_ok_iff.mp read with ⟨_, _, same⟩
  cases same
  exact plain_of_leading given

end Folio.Json
