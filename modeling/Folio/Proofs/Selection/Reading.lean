import Folio.Proofs.Selection.Grammar
import Folio.Proofs.Selection.Lexing
import Folio.Proofs.Selection.Runs

/-!
# Reading what is spelt

A run over the tokens that spell some fields ends with what the fields mean.  Where a
token starts has a say in refusals only, so the runs are followed without positions.
-/

namespace Folio.Selection

namespace Reading

/-! ## Runs that do not look at positions -/

/-- The state after tokens, if all of them are taken. -/
def take? (state : Reading) : List Token → Option Reading
  | [] => some state
  | token :: rest => (state.step ⟨token, 0⟩).toOption.bind fun next => next.take? rest

variable {state : Reading}

theorem step_toOption (state : Reading) (token : Token) (start other : Nat) :
    (state.step ⟨token, start⟩).toOption = (state.step ⟨token, other⟩).toOption := by
  rcases state with ⟨enclosing, fields, progress⟩
  cases progress <;> cases token <;> cases enclosing <;> rfl

theorem run_toOption (state : Reading) (located : List Located) :
    (state.run located).toOption = state.take? (located.map Located.token) := by
  induction located generalizing state with
  | nil => rfl
  | cons found rest ih =>
      rw [List.map_cons, take?, step_toOption state found.token 0 found.offset, run]
      cases state.step found with
      | error cause => rfl
      | ok next => exact ih next

/-- A run ends where its tokens lead. -/
theorem run_eq_ok_iff {located : List Located} {after : Reading} :
    state.run located = .ok after ↔ state.take? (located.map Located.token) = some after := by
  rw [← run_toOption, toOption_eq_some_iff]

theorem take?_append (state : Reading) (first second : List Token) :
    state.take? (first ++ second) = (state.take? first).bind fun next => next.take? second := by
  induction first generalizing state with
  | nil => rfl
  | cons token rest ih =>
      rw [List.cons_append, take?, take?, Option.bind_assoc]
      congr 1
      funext next
      exact ih next

/-! ## Reading what is spelt -/

/-- Whether fields have been read completely at a level, and more may follow. -/
structure Behind (state : Reading) (enclosing : List Level) (fields : Selection) : Prop where
  enclosing : state.enclosing = enclosing
  settled : state.settled = fields
  progress : state.progress = .group ∨ ∃ text, state.progress = .name text

/-- Behind a field a comma goes on. -/
theorem Behind.comma {enclosing : List Level} {fields : Selection}
    (behind : state.Behind enclosing fields) (rest : List Token) :
    state.take? (.comma :: rest) = (⟨enclosing, fields, .comma⟩ : Reading).take? rest := by
  rcases state with ⟨levels, before, progress⟩
  rcases behind with ⟨rfl, rfl, rfl | ⟨text, rfl⟩⟩
  · rfl
  · rfl

/-- Behind the last field of a group a parenthesis closes it. -/
theorem Behind.closing {outer : Level} {enclosing : List Level} {fields : Selection}
    (behind : state.Behind (outer :: enclosing) fields) :
    state.take? [.closing] =
      some ⟨enclosing, Fields.put outer.fields outer.group (.group fields), .group⟩ := by
  rcases state with ⟨levels, before, progress⟩
  rcases behind with ⟨rfl, rfl, rfl | ⟨text, rfl⟩⟩
  · rfl
  · rfl

/-- Behind the last field of a text the text may end. -/
theorem Behind.finish {fields : Selection} (behind : state.Behind [] fields) :
    state.finish = .ok fields := by
  rcases state with ⟨levels, before, progress⟩
  rcases behind with ⟨rfl, rfl, rfl | ⟨text, rfl⟩⟩
  · rfl
  · rfl

mutual

/-- Behind its name, what spells a field is read as what the field means. -/
theorem take?_fieldSpelling : (field : Field) →
    ∀ (enclosing : List Level) (fields : Selection) (name : String),
      ∃ after, (⟨enclosing, fields, .name name⟩ : Reading).take? field.spelling = some after ∧
        after.Behind enclosing (Fields.put fields name field.meaning)
  | .leaf, enclosing, fields, name => ⟨_, rfl, rfl, rfl, .inr ⟨name, rfl⟩⟩
  | .group [], enclosing, fields, name => ⟨_, rfl, rfl, rfl, .inl rfl⟩
  | .group (first :: others), enclosing, fields, name => by
      obtain ⟨inside, taken, behind⟩ := take?_spelling (first :: others)
        (List.cons_ne_nil first others) (⟨fields, name⟩ :: enclosing) [] .start (.inl rfl)
      rw [Fields.putAll_nil_eq_settled] at behind
      have opened : (⟨enclosing, fields, .name name⟩ : Reading).take? [.colon, .opening] =
          some ⟨⟨fields, name⟩ :: enclosing, [], .start⟩ := rfl
      refine ⟨⟨enclosing, Fields.put fields name (Field.group (first :: others)).meaning, .group⟩,
        ?_, rfl, rfl, .inl rfl⟩
      rw [Field.spelling, take?_append, take?_append, opened, Option.bind_some, taken,
        Option.bind_some, behind.closing, Field.meaning]
termination_by structural field => field

/-- Where a field may start, what spells fields is read as what they mean one after the
other. -/
theorem take?_spelling : (written : List (String × Field)) → written ≠ [] →
    ∀ (enclosing : List Level) (fields : Selection) (progress : Progress),
      progress = .start ∨ progress = .comma →
      ∃ after, (⟨enclosing, fields, progress⟩ : Reading).take? (spelling written) = some after ∧
        after.Behind enclosing (Fields.putAll fields (meanings written))
  | [], nonempty, _, _, _, _ => absurd rfl nonempty
  | [(name, field)], _, enclosing, fields, progress, fresh => by
      obtain ⟨after, taken, behind⟩ := take?_fieldSpelling field enclosing fields name
      refine ⟨after, ?_, behind⟩
      rcases fresh with rfl | rfl <;> exact taken
  | (name, field) :: next :: others, _, enclosing, fields, progress, fresh => by
      obtain ⟨first, taken, behind⟩ := take?_fieldSpelling field enclosing fields name
      obtain ⟨after, laterTaken, laterBehind⟩ := take?_spelling (next :: others)
        (List.cons_ne_nil next others) enclosing _ .comma (.inr rfl)
      refine ⟨after, ?_, laterBehind⟩
      have named : (⟨enclosing, fields, progress⟩ : Reading).take?
            (.name name :: (field.spelling ++ .comma :: spelling (next :: others))) =
          (⟨enclosing, fields, .name name⟩ : Reading).take?
            (field.spelling ++ .comma :: spelling (next :: others)) := by
        rcases fresh with rfl | rfl <;> rfl
      rw [spelling, List.cons_append, named, take?_append, taken, Option.bind_some, behind.comma,
        laterTaken]
termination_by structural written => written

end

end Reading

/-! ## Whole texts -/

/-- A text that spells some fields is read as what they mean. -/
theorem read_of_lex {text : String} {written : List (String × Field)}
    (spelt : lex text.toList = spelling written) : read text = .ok (meaning written) := by
  have tokens : (tokens text).map Located.token = spelling written := spelt
  cases written with
  | nil =>
      rw [spelling, List.map_eq_nil_iff] at tokens
      rw [read, tokens]
      rfl
  | cons first others =>
      obtain ⟨after, taken, behind⟩ := Reading.take?_spelling (first :: others)
        (List.cons_ne_nil first others) [] [] .start (.inl rfl)
      rw [Fields.putAll_nil_eq_settled] at behind
      have ran : Reading.initial.run (Selection.tokens text) = .ok after := by
        rw [Reading.run_eq_ok_iff, tokens]
        exact taken
      exact read_eq_ok_iff.mpr ⟨after, ran, behind.finish⟩

end Folio.Selection
