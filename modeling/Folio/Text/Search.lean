/-!
# Finding one text in another

The questions are asked about characters.  Their answers are characterised by
concatenation: a text starts with `a` when it is `a ++ b`, ends with `b` when it
is `a ++ b`, and contains `b` when it is `a ++ b ++ c`.
-/

namespace Folio.Text

/-- Whether a text starts with a part. -/
def startsWith (part text : String) : Bool := part.toList.isPrefixOf text.toList

/-- Whether a text ends with a part. -/
def endsWith (part text : String) : Bool := part.toList.isSuffixOf text.toList

/-- Whether a part occurs somewhere in a list of characters. -/
def occursIn (part : List Char) : List Char → Bool
  | [] => part.isEmpty
  | c :: rest => part.isPrefixOf (c :: rest) || occursIn part rest

/-- Whether a part occurs somewhere in a text. -/
def contains (part text : String) : Bool := occursIn part.toList text.toList

/-- What follows a part at the front of a text. -/
def after? (part text : String) : Option String :=
  (part.toList.isPrefixOf? text.toList).map String.ofList

/-- The pieces of a text between the occurrences of a character. -/
def piecesBetween (separator : Char) (text : String) : List String :=
  (text.toList.splitOn separator).map String.ofList

/-- Cut a list of characters at the first occurrence of a character, which goes
away. -/
def cutAt? (separator : Char) : List Char → Option (List Char × List Char)
  | [] => none
  | c :: rest =>
      if c = separator then some ([], rest)
      else (cutAt? separator rest).map fun (before, behind) => (c :: before, behind)

theorem startsWith_iff {part text : String} :
    startsWith part text ↔ ∃ rest, text.toList = part.toList ++ rest := by
  simp only [startsWith, List.isPrefixOf_iff_prefix]
  exact ⟨fun ⟨rest, equal⟩ => ⟨rest, equal.symm⟩, fun ⟨rest, equal⟩ => ⟨rest, equal.symm⟩⟩

theorem endsWith_iff {part text : String} :
    endsWith part text ↔ ∃ rest, text.toList = rest ++ part.toList := by
  simp only [endsWith, List.isSuffixOf_iff_suffix]
  exact ⟨fun ⟨rest, equal⟩ => ⟨rest, equal.symm⟩, fun ⟨rest, equal⟩ => ⟨rest, equal.symm⟩⟩

/-- A part occurs in a list of characters exactly when the list is the part
between two others. -/
theorem occursIn_iff {part chars : List Char} :
    occursIn part chars ↔ ∃ before behind, chars = before ++ part ++ behind := by
  induction chars with
  | nil =>
      constructor
      · intro found
        exact ⟨[], [], by simpa [occursIn] using found⟩
      · rintro ⟨before, behind, equal⟩
        simp_all [occursIn]
  | cons c rest ih =>
      simp only [occursIn, Bool.or_eq_true, List.isPrefixOf_iff_prefix, ih]
      constructor
      · rintro (⟨behind, equal⟩ | ⟨before, behind, equal⟩)
        · exact ⟨[], behind, by simp [equal]⟩
        · exact ⟨c :: before, behind, by simp [equal]⟩
      · rintro ⟨before, behind, equal⟩
        cases before with
        | nil => exact .inl ⟨behind, by simpa using equal.symm⟩
        | cons first before =>
            simp only [List.cons_append, List.cons.injEq] at equal
            exact .inr ⟨before, behind, equal.2⟩

theorem contains_iff {part text : String} :
    contains part text ↔ ∃ before behind, text.toList = before ++ part.toList ++ behind :=
  occursIn_iff

end Folio.Text
