/-!
# Attempts

An attempt gives a result or the reason why there is none.  An attempt in steps succeeds
when all of its steps do, and fails at the first step that does not.
-/

namespace Folio

variable {ε α β : Type}

/-- An attempt succeeds when its parts do. -/
theorem bind_eq_ok_iff {first : Except ε α} {next : α → Except ε β} {result : β} :
    (first >>= next) = .ok result ↔ ∃ value, first = .ok value ∧ next value = .ok result := by
  cases first with
  | error error => simp [bind, Except.bind]
  | ok value => simp [bind, Except.bind]

theorem bind_eq_error_iff {first : Except ε α} {next : α → Except ε β} {reason : ε} :
    (first >>= next) = .error reason ↔
      first = .error reason ∨ ∃ value, first = .ok value ∧ next value = .error reason := by
  cases first with
  | error error => simp [bind, Except.bind]
  | ok value => simp [bind, Except.bind]

/-- What is made of a result is there when the result is. -/
theorem map_eq_ok_iff {attempt : Except ε α} {make : α → β} {result : β} :
    attempt.map make = .ok result ↔ ∃ value, attempt = .ok value ∧ make value = result := by
  cases attempt with
  | error error => simp [Except.map]
  | ok value => simp [Except.map]

theorem mapError_eq_ok_iff {δ : Type} {attempt : Except ε α} {retell : ε → δ} {result : α} :
    attempt.mapError retell = .ok result ↔ attempt = .ok result := by
  cases attempt with
  | error error => exact ⟨nofun, nofun⟩
  | ok value => exact ⟨fun told => by cases told; rfl, fun found => by cases found; rfl⟩

theorem mapError_eq_error_iff {δ : Type} {attempt : Except ε α} {retell : ε → δ} {told : δ} :
    attempt.mapError retell = .error told ↔
      ∃ reason, attempt = .error reason ∧ retell reason = told := by
  constructor
  · intro failed
    cases attempt with
    | error error => exact ⟨error, rfl, Except.error.inj failed⟩
    | ok value => contradiction
  · rintro ⟨reason, rfl, rfl⟩
    rfl

theorem mapM_eq_ok_map {attempt : α → Except ε β} {result : α → β} {elements : List α}
    (each : ∀ element ∈ elements, attempt element = .ok (result element)) :
    elements.mapM attempt = .ok (elements.map result) := by
  induction elements with
  | nil => rfl
  | cons element rest ih =>
      rw [List.forall_mem_cons] at each
      rw [List.mapM_cons, each.1, ih each.2]
      rfl

/-- What a step gives, without the reason if it fails, is what its parts give. -/
theorem toOption_bind (first : Except ε α) (next : α → Except ε β) :
    (first >>= next).toOption = first.toOption.bind fun value => (next value).toOption := by
  cases first <;> rfl

/-- Without the reason of a refusal nothing is lost of a result. -/
theorem toOption_eq_some_iff {attempt : Except ε α} {result : α} :
    attempt.toOption = some result ↔ attempt = .ok result := by
  cases attempt <;> simp [Except.toOption]

end Folio
