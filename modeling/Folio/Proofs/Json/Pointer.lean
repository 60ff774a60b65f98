import Folio.Json.Pointer
import Mathlib.Data.List.Infix

/-!
# Names in pointers

A name that is put between the slashes of a pointer is one step, and that step is the
name, exactly when the name holds no slash and no tilde before a zero or a one.  A step
leads to a member, except that in an array a step of digits leads to an item.
-/

namespace Folio.Json

variable {first second replacement : Char} {chars : List Char} {value : Json}

/-! ## Escapes -/

/-- Replacing pairs makes no text longer. -/
theorem length_replacePair_le (chars : List Char) :
    (replacePair first second replacement chars).length ≤ chars.length := by
  fun_induction replacePair first second replacement chars with
  | case1 => exact Nat.le_refl _
  | case2 c => exact Nat.le_refl _
  | case3 a b rest pair ih =>
      apply Nat.succ_le_succ
      exact Nat.le_succ_of_le ih
  | case4 a b rest other ih =>
      exact Nat.succ_le_succ ih

/-- A text in which a pair occurs becomes shorter. -/
theorem length_replacePair_lt (pair : [first, second] <:+: chars) :
    (replacePair first second replacement chars).length < chars.length := by
  fun_induction replacePair first second replacement chars with
  | case1 => simp at pair
  | case2 c => simpa using pair.length_le
  | case3 a b rest here ih =>
      apply Nat.succ_lt_succ
      exact Nat.lt_succ_of_le (length_replacePair_le rest)
  | case4 a b rest other ih =>
      rcases List.infix_cons_iff.mp pair with front | inner
      · have equal : first = a ∧ second = b := by simpa using front
        exact absurd ⟨equal.1.symm, equal.2.symm⟩ other
      · exact Nat.succ_lt_succ (ih inner)

/-- A text in which a pair does not occur stays as it is. -/
theorem replacePair_of_not_infix (absent : ¬ [first, second] <:+: chars) :
    replacePair first second replacement chars = chars := by
  fun_induction replacePair first second replacement chars with
  | case1 => rfl
  | case2 c => rfl
  | case3 a b rest here ih =>
      obtain ⟨rfl, rfl⟩ := here
      exact absurd ⟨[], rest, rfl⟩ absent
  | case4 a b rest other ih =>
      rw [ih]
      intro inner
      exact absent (List.infix_cons inner)

/-- A name that means itself as a step of a pointer. -/
structure StandsForItself (name : String) : Prop where
  /-- It is one piece. -/
  whole : '/' ∉ name.toList
  /-- No slash is written in it. -/
  slashless : ¬ ['~', '1'] <:+: name.toList
  /-- No tilde is written in it. -/
  tildeless : ¬ ['~', '0'] <:+: name.toList

instance (name : String) : Decidable (StandsForItself name) :=
  decidable_of_iff ('/' ∉ name.toList ∧ ¬ ['~', '1'] <:+: name.toList ∧
      ¬ ['~', '0'] <:+: name.toList)
    ⟨fun ⟨whole, slashless, tildeless⟩ => ⟨whole, slashless, tildeless⟩,
      fun stands => ⟨stands.whole, stands.slashless, stands.tildeless⟩⟩

theorem length_unescapeStep_le (piece : List Char) :
    (unescapeStep piece).length ≤ piece.length :=
  (length_replacePair_le _).trans (length_replacePair_le piece)

theorem length_unescapeStep_lt (escaped : ['~', '1'] <:+: chars ∨ ['~', '0'] <:+: chars) :
    (unescapeStep chars).length < chars.length := by
  by_cases slash : ['~', '1'] <:+: chars
  · exact (length_replacePair_le _).trans_lt (length_replacePair_lt slash)
  · rw [unescapeStep, replacePair_of_not_infix slash]
    exact length_replacePair_lt (escaped.resolve_left slash)

/-! ## Steps -/

theorem pointerSteps_append (front behind : List Char) :
    pointerSteps (front ++ '/' :: behind) = pointerSteps front ++ pointerSteps behind := by
  rw [pointerSteps, List.splitOn_append_cons_self, List.map_append]
  rfl

theorem StandsForItself.pointerSteps_eq {name : String} (stands : StandsForItself name) :
    pointerSteps name.toList = [name] := by
  rw [pointerSteps, List.splitOn_eq_singleton stands.whole, List.map_singleton, unescapeStep,
    replacePair_of_not_infix stands.slashless, replacePair_of_not_infix stands.tildeless,
    String.ofList_toList]

/-- Any other name begins with a step that is shorter than it. -/
theorem exists_pointerSteps_eq_cons {name : String} (twisted : ¬ StandsForItself name) :
    ∃ step rest, pointerSteps name.toList = step :: rest ∧ step ≠ name := by
  have shorter {piece : List Char} (short : (unescapeStep piece).length < name.toList.length) :
      String.ofList (unescapeStep piece) ≠ name := by
    intro same
    rw [← same, String.toList_ofList] at short
    exact Nat.lt_irrefl _ short
  by_cases slashed : '/' ∈ name.toList
  · rcases List.eq_append_cons_of_mem slashed with ⟨front, behind, equal, unslashed⟩
    refine ⟨String.ofList (unescapeStep front), pointerSteps behind, ?_, shorter ?_⟩
    · rw [equal, pointerSteps_append, pointerSteps, List.splitOn_eq_singleton unslashed]
      rfl
    · apply (length_unescapeStep_le front).trans_lt
      simp [equal]
  · refine ⟨String.ofList (unescapeStep name.toList), [], ?_, shorter ?_⟩
    · rw [pointerSteps, List.splitOn_eq_singleton slashed]
      rfl
    · apply length_unescapeStep_lt
      by_contra! absent
      exact twisted ⟨slashed, absent.1, absent.2⟩

/-! ## Walks -/

theorem walk?_append (steps more : List String) :
    walk? value (steps ++ more) = (walk? value steps).bind fun inner => walk? inner more := by
  induction steps generalizing value with
  | nil => rfl
  | cons step rest ih =>
      simp only [List.cons_append, walk?, ih, Option.bind_assoc]

theorem stepInto?_of_not_index {step : String} (letters : indexOfStep? step.toList = none) :
    stepInto? value step = value.member? step := by
  cases value with
  | array items => simp [stepInto?, member?, letters]
  | _ => rfl

end Folio.Json
