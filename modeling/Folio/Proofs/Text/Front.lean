import Folio.Text.Search
import Mathlib.Data.List.Basic

/-!
# Texts that start alike

What follows a part at the front of a text is determined by concatenation, and
texts that share a front are ordered as what follows it.
-/

namespace Folio.Text

/-- What follows a part is what the part has to be completed with. -/
theorem after?_eq_some_iff {part text rest : String} :
    after? part text = some rest ↔ text = part ++ rest := by
  simp only [after?, Option.map_eq_some_iff, List.isPrefixOf?_eq_some_iff_append_eq]
  constructor
  · rintro ⟨chars, equal, rfl⟩
    rw [← String.toList_inj, String.toList_append, String.toList_ofList, equal]
  · rintro rfl
    exact ⟨rest.toList, String.toList_append.symm, String.ofList_toList⟩

@[simp]
theorem after?_append (part rest : String) : after? part (part ++ rest) = some rest :=
  after?_eq_some_iff.mpr rfl

@[simp]
theorem startsWith_append (part rest : String) : startsWith part (part ++ rest) = true :=
  startsWith_iff.mpr ⟨rest.toList, String.toList_append⟩

/-- Texts that start with a part are the part and a rest. -/
theorem exists_eq_append_of_startsWith {part text : String} (starts : startsWith part text) :
    ∃ rest, text = part ++ rest := by
  rcases startsWith_iff.mp starts with ⟨rest, equal⟩
  refine ⟨String.ofList rest, ?_⟩
  rw [← String.toList_inj, equal, String.toList_append, String.toList_ofList]

/-- A text can be completed to one that starts with a part exactly when one of the two
starts with the other. -/
theorem exists_startsWith_append_iff {part front : String} :
    (∃ rest, startsWith part (front ++ rest)) ↔ startsWith part front ∨ startsWith front part := by
  constructor
  · rintro ⟨rest, starts⟩
    have whole : front.toList <+: (front ++ rest).toList := by
      rw [String.toList_append]
      exact List.prefix_append _ _
    rcases List.prefix_or_prefix_of_prefix (List.isPrefixOf_iff_prefix.mp starts) whole with
      shorter | longer
    · exact .inl (List.isPrefixOf_iff_prefix.mpr shorter)
    · exact .inr (List.isPrefixOf_iff_prefix.mpr longer)
  · rintro (shorter | longer)
    · exact ⟨"", by rwa [String.append_empty]⟩
    · rcases exists_eq_append_of_startsWith longer with ⟨rest, rfl⟩
      exact ⟨rest, startsWith_iff.mpr ⟨[], (List.append_nil _).symm⟩⟩

/-- A text is cut at a separator behind a front without separators. -/
theorem cutAt?_append {separator : Char} {front : List Char} (absent : separator ∉ front)
    (rest : List Char) : cutAt? separator (front ++ separator :: rest) = some (front, rest) := by
  induction front with
  | nil => simp [cutAt?]
  | cons c front ih =>
      rw [List.mem_cons, not_or] at absent
      rw [List.cons_append, cutAt?, if_neg (Ne.symm absent.1), ih absent.2]
      rfl

/-- A text without separators is not cut. -/
theorem cutAt?_eq_none_iff {separator : Char} {chars : List Char} :
    cutAt? separator chars = none ↔ separator ∉ chars := by
  induction chars with
  | nil => simp [cutAt?]
  | cons c rest ih =>
      rw [cutAt?, List.mem_cons, not_or]
      split
      · rename_i same
        simp [same]
      · rename_i different
        simp [ih, Ne.symm different]

/-- A common front has no say in the order of two texts. -/
theorem append_lt_append_iff {part first second : String} :
    part ++ first < part ++ second ↔ first < second := by
  have onward {a b : String} (below : a < b) : part ++ a < part ++ b := by
    rw [String.lt_iff, String.toList_append, String.toList_append]
    exact List.append_left_lt (String.lt_iff.mp below)
  refine ⟨fun below => ?_, onward⟩
  by_cases less : first < second
  · exact less
  · by_cases greater : second < first
    · exact absurd below (String.lt_asymm (onward greater))
    · have equal : first = second :=
        String.le_antisymm (String.not_lt.mp greater) (String.not_lt.mp less)
      rw [equal] at below
      exact absurd below (String.lt_irrefl _)

theorem not_lt_of_startsWith {part text : String} (starts : startsWith part text) :
    ¬ text < part := by
  rcases exists_eq_append_of_startsWith starts with ⟨rest, rfl⟩
  intro below
  have ownFront : part ++ rest < part ++ "" := by rwa [String.append_empty]
  exact List.not_lt_nil _ (String.lt_iff.mp (append_lt_append_iff.mp ownFront))

/-- What lies between a text and a text that starts with it starts with it as well. -/
theorem isPrefix_of_between {part chars rest : List Char} (above : ¬ chars < part)
    (below : chars < part ++ rest) : part <+: chars := by
  induction part generalizing chars with
  | nil => exact List.nil_prefix
  | cons c part ih =>
      cases chars with
      | nil => exact absurd (List.nil_lt_cons c part) above
      | cons d chars =>
          rw [List.cons_append, List.cons_lt_cons_iff] at below
          rw [List.cons_lt_cons_iff, not_or] at above
          rcases below with less | ⟨rfl, below⟩
          · exact absurd less above.1
          · exact List.cons_prefix_cons.mpr ⟨rfl, ih (fun less => above.2 ⟨rfl, less⟩) below⟩

theorem startsWith_of_between {part text later : String} (above : ¬ text < part)
    (below : text < later) (starts : startsWith part later) : startsWith part text := by
  rcases exists_eq_append_of_startsWith starts with ⟨rest, rfl⟩
  rw [String.lt_iff] at above
  rw [String.lt_iff, String.toList_append] at below
  exact List.isPrefixOf_iff_prefix.mpr (isPrefix_of_between above below)

/-- A word with a separator behind it never starts a text that puts other
characters in front of the word. -/
theorem append_separator_ne {lead : List Char} {separator : Char} (absent : separator ∉ lead)
    (word rest : List Char) : word ++ separator :: rest ≠ lead ++ word := by
  -- The word can only be shorter than the lead, or start with the lead itself, and
  -- then what is left of it is a shorter word of the same kind.
  induction size : word.length using Nat.strongRecOn generalizing word with
  | ind length ih =>
      intro equal
      rcases List.append_eq_append_iff.mp equal with
        ⟨between, leadIs, wordIs⟩ | ⟨shorter, wordIs, _⟩
      · cases between with
        | nil =>
            have wordHead : separator :: rest = lead := by
              simpa [leadIs] using wordIs
            exact absent (wordHead ▸ List.mem_cons_self)
        | cons c between =>
            have same : separator = c := (List.cons.inj wordIs).1
            exact absent (by simp [leadIs, same])
      · cases lead with
        | nil => simp at equal
        | cons c lead =>
            have shrinks : shorter.length < length := by
              simp only [← size, wordIs, List.length_append, List.length_cons]
              omega
            apply ih shorter.length shrinks shorter rfl
            rw [wordIs, List.append_assoc] at equal
            exact List.append_cancel_left equal

end Folio.Text
