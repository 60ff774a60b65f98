import Folio.Proofs.Selection.Names
import Folio.Proofs.Selection.Runs
import Folio.Selection.Form

/-!
# Selections that can be built

Reading a text, reading a JSON form and adding entries all make selections that are
well formed: at every level the names are distinct and can be expressed.
-/

namespace Folio.Selection

/-! ## Reading a text -/

namespace Reading

/-- Whether a name that has just been read can be expressed. -/
def NameRead : Progress → Prop
  | .name text => IsName text
  | .colon text => IsName text
  | _ => True

/-- Whether what has been read at all levels is well formed. -/
structure Sound (state : Reading) : Prop where
  fields : WellFormed state.fields
  name : NameRead state.progress
  enclosing : ∀ level ∈ state.enclosing, WellFormed level.fields ∧ IsName level.group

variable {state next : Reading} {found : Located}

theorem sound_initial : Sound initial where
  fields := wellFormed_nil
  name := trivial
  enclosing _ member := absurd member List.not_mem_nil

/-- A name in front may be settled. -/
theorem Sound.settled (sound : Sound state) : WellFormed state.settled := by
  rcases state with ⟨enclosing, fields, progress⟩
  cases progress with
  | name text => exact sound.fields.put sound.name trivial
  | start => exact sound.fields
  | comma => exact sound.fields
  | colon text => exact sound.fields
  | group => exact sound.fields

/-- Going on behind a field, or ending a group, keeps everything well formed. -/
theorem Sound.advance (sound : Sound state) (taken : state.advance found = .ok next) :
    Sound next := by
  unfold Reading.advance at taken
  split at taken
  · cases taken
    exact ⟨sound.settled, trivial, sound.enclosing⟩
  · rename_i level enclosing _ levels
    cases taken
    have outer := sound.enclosing
    rw [levels, List.forall_mem_cons] at outer
    exact ⟨outer.1.1.put outer.1.2 sound.settled, trivial, outer.2⟩
  · contradiction

/-- Every token that is taken keeps everything well formed. -/
theorem Sound.step (sound : Sound state)
    (isName : ∀ text, found.token = .name text → IsName text)
    (taken : state.step found = .ok next) : Sound next := by
  unfold Reading.step at taken
  split at taken
  case h_1 text _ token =>
    cases taken
    exact ⟨sound.fields, isName text token, sound.enclosing⟩
  case h_2 => exact sound.advance taken
  case h_3 => contradiction
  case h_4 text _ token =>
    cases taken
    exact ⟨sound.fields, isName text token, sound.enclosing⟩
  case h_5 => contradiction
  case h_6 text progress _ =>
    cases taken
    have name := sound.name
    rw [progress] at name
    exact ⟨sound.fields, name, sound.enclosing⟩
  case h_7 => exact sound.advance taken
  case h_8 text progress _ =>
    cases taken
    have name := sound.name
    rw [progress] at name
    refine ⟨wellFormed_nil, trivial, ?_⟩
    rw [List.forall_mem_cons]
    exact ⟨⟨sound.fields, name⟩, sound.enclosing⟩
  case h_9 => contradiction
  case h_10 => exact sound.advance taken

/-- A run over tokens keeps everything well formed. -/
theorem Sound.run (sound : Sound state) {located : List Located}
    (areNames : ∀ found ∈ located, ∀ text, found.token = .name text → IsName text)
    (ran : state.run located = .ok next) : Sound next := by
  induction located generalizing state with
  | nil =>
      cases ran
      exact sound
  | cons found rest ih =>
      rw [List.forall_mem_cons] at areNames
      rcases run_cons_eq_ok_iff.mp ran with ⟨after, taken, onward⟩
      exact ih (sound.step areNames.1 taken) areNames.2 onward

/-- What has been read when the text ends is well formed. -/
theorem Sound.finish (sound : Sound state) {selection : Selection}
    (finished : state.finish = .ok selection) : WellFormed selection := by
  unfold Reading.finish at finished
  split at finished
  · contradiction
  · contradiction
  · contradiction
  · cases finished
    exact sound.settled

end Reading

/-- Every selection that is read is well formed. -/
theorem wellFormed_of_read {text : String} {selection : Selection}
    (found : read text = .ok selection) : WellFormed selection := by
  rcases read_eq_ok_iff.mp found with ⟨last, ran, finished⟩
  have names : ∀ located ∈ tokens text, ∀ name, located.token = .name name → IsName name :=
    fun located member name => isName_of_mem_tokensFrom (by simp) member
  exact (Reading.sound_initial.run names ran).finish finished

/-! ## Reading a JSON form -/

mutual

/-- Every field that is read from a member is well formed. -/
theorem fieldWellFormed_of_ofMember {whole : Fields Json} {name : String} {field : Field} :
    (value : Json) → ofMember whole name value = .ok field → FieldWellFormed field
  | .bool true, found => by
      cases found
      trivial
  | .object members, found => by
      rw [ofMember] at found
      rcases map_eq_ok_iff.mp found with ⟨sub, inner, rfl⟩
      exact wellFormed_of_ofMembers members wellFormed_nil inner
  | .bool false, found => by simp [ofMember] at found
  | .null, found => by simp [ofMember] at found
  | .number value, found => by simp [ofMember] at found
  | .string text, found => by simp [ofMember] at found
  | .array items, found => by simp [ofMember] at found
termination_by structural value => value

/-- Every selection that is read from members is well formed. -/
theorem wellFormed_of_ofMembers {whole : Fields Json} {sofar selection : Selection} :
    (members : List (String × Json)) → WellFormed sofar →
      ofMembers whole sofar members = .ok selection → WellFormed selection
  | [], wellFormed, found => by
      cases found
      exact wellFormed
  | (name, value) :: rest, wellFormed, found => by
      rw [ofMembers] at found
      rcases bind_eq_ok_iff.mp found with ⟨field, read, found⟩
      rcases bind_eq_ok_iff.mp found with ⟨extended, added, found⟩
      rcases insert_eq_ok_iff.mp added with ⟨isName, rfl⟩
      have inner := fieldWellFormed_of_ofMember value read
      exact wellFormed_of_ofMembers rest (wellFormed.put isName inner) found
termination_by structural members => members

end

theorem wellFormed_of_ofJson {value : Json} {selection : Selection}
    (found : ofJson value = .ok selection) : WellFormed selection := by
  cases value with
  | string text => exact wellFormed_of_read found
  | object members => exact wellFormed_of_ofMembers members wellFormed_nil found
  | null => simp [ofJson] at found
  | bool value => simp [ofJson] at found
  | number value => simp [ofJson] at found
  | array items => simp [ofJson] at found

/-! ## Every way of building -/

/-- The selections that come from reading texts and JSON forms and from adding
entries. -/
inductive Built : Selection → Prop
  | empty : Built []
  | read {text : String} {selection : Selection} (found : read text = .ok selection) :
      Built selection
  | json {value : Json} {selection : Selection} (found : ofJson value = .ok selection) :
      Built selection
  | leaf {selection next : Selection} {name : String} (built : Built selection)
      (added : insert selection name .leaf = .ok next) : Built next
  | group {selection sub next : Selection} {name : String} (built : Built selection)
      (inner : Built sub) (added : insert selection name (.group sub) = .ok next) : Built next

/-- Every selection that is built is well formed. -/
theorem Built.wellFormed {selection : Selection} (built : Built selection) :
    WellFormed selection := by
  induction built with
  | empty => exact wellFormed_nil
  | read found => exact wellFormed_of_read found
  | json found => exact wellFormed_of_ofJson found
  | leaf _ added wellFormed =>
      rcases insert_eq_ok_iff.mp added with ⟨isName, rfl⟩
      exact wellFormed.put isName trivial
  | group _ _ added wellFormed inner =>
      rcases insert_eq_ok_iff.mp added with ⟨isName, rfl⟩
      exact wellFormed.put isName inner

end Folio.Selection
