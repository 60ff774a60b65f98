import Folio.Files.Volume
import Folio.Proofs.Fields

/-!
# A directory on a volume

Writing a file changes one directory.  Every path that led somewhere still leads there,
since no directory is lost and no entry goes away.  A directory that a path leads to can
therefore be listed, read and written through that path as long as the paths are not
too long.
-/

namespace Folio.Volume

/-! ## Lists of names -/

theorem find?_append (volume : Volume) (front rest : List String) :
    volume.find? (front ++ rest) = (volume.find? front).bind fun inner => inner.find? rest := by
  induction front generalizing volume with
  | nil => simp [find?]
  | cons name front ih =>
      cases volume with
      | file content => simp [find?]
      | directory entries =>
          rw [List.cons_append, find?, find?, Option.bind_assoc]
          cases Fields.get? entries name with
          | none => rfl
          | some inner => exact ih inner

theorem find?_singleton (entries : List (String × Volume)) (name : String) :
    (directory entries).find? [name] = Fields.get? entries name := by
  rw [find?]
  cases Fields.get? entries name <;> rfl

/-- What stands in a directory is found by its name behind those of the directory. -/
theorem find?_concat {volume : Volume} {names : List String} {entries : List (String × Volume)}
    (found : volume.find? names = some (.directory entries)) (name : String) :
    volume.find? (names ++ [name]) = Fields.get? entries name := by
  rw [find?_append, found, Option.bind_some, find?_singleton]

/-! ## Putting something somewhere -/

theorem put_singleton (entries : List (String × Volume)) (name : String) (new : Volume) :
    (directory entries).put new [name] = .directory (Fields.put entries name new) := by
  rw [put]
  cases Fields.get? entries name <;> rfl

theorem put_cons {entries : List (String × Volume)} {name : String} {inner : Volume}
    (present : Fields.get? entries name = some inner) (new : Volume) (rest : List String) :
    (directory entries).put new (name :: rest) =
      .directory (Fields.put entries name (inner.put new rest)) := by
  rw [put]
  simp only [present]

/-- Behind a name stands a directory when what stands under the name leads there. -/
theorem find?_cons_eq_some_iff {volume found : Volume} {name : String} {rest : List String} :
    volume.find? (name :: rest) = some found ↔ ∃ entries inner, volume = .directory entries ∧
      Fields.get? entries name = some inner ∧ inner.find? rest = some found := by
  cases volume with
  | file content => simp [find?]
  | directory entries => simp [find?, Option.bind_eq_some_iff]

/-- Putting something into a directory binds its name there. -/
theorem find?_put {volume : Volume} {names : List String} {entries : List (String × Volume)}
    (found : volume.find? names = some (.directory entries)) (name : String) (new : Volume) :
    (volume.put new (names ++ [name])).find? names =
      some (.directory (Fields.put entries name new)) := by
  induction names generalizing volume with
  | nil =>
      cases found
      rw [List.nil_append, put_singleton, find?]
  | cons first rest ih =>
      rcases find?_cons_eq_some_iff.mp found with ⟨siblings, inner, rfl, present, found⟩
      rw [List.cons_append, put_cons present, find?, Fields.get?_put_self, Option.bind_some]
      exact ih found

/-! ## Growing -/

/-- Whether every directory of a volume is still there with all its names. -/
def Grows (volume grown : Volume) : Prop :=
  ∀ names entries, volume.find? names = some (.directory entries) →
    ∃ more, grown.find? names = some (.directory more) ∧
      ∀ name, Fields.has entries name = true → Fields.has more name = true

theorem has_put {entries : List (String × Volume)} {name other : String} (new : Volume)
    (bound : Fields.has entries other = true) :
    Fields.has (Fields.put entries name new) other = true := by
  by_cases same : other = name
  · rw [same, Fields.has, Fields.get?_put_self]
    rfl
  · rwa [Fields.has, Fields.get?_put_of_ne _ _ same]

theorem grows_file (content : ByteArray) (grown : Volume) : Grows (.file content) grown := by
  intro names entries here
  cases names <;> simp [find?] at here

/-- A directory grows when what stands under one of its names grows. -/
theorem grows_directory {entries : List (String × Volume)} {name : String} {new : Volume}
    (grows : ∀ inner, Fields.get? entries name = some inner → Grows inner new) :
    Grows (.directory entries) (.directory (Fields.put entries name new)) := by
  intro names inside here
  cases names with
  | nil =>
      cases here
      exact ⟨_, rfl, fun _ => has_put new⟩
  | cons first rest =>
      rw [find?] at here ⊢
      by_cases same : first = name
      · rcases Option.bind_eq_some_iff.mp here with ⟨inner, present, found⟩
        rw [same, Fields.get?_put_self, Option.bind_some]
        exact grows inner (same ▸ present) rest inside found
      · rw [Fields.get?_put_of_ne _ _ same]
        exact ⟨inside, here, fun _ => id⟩

/-- Nothing is lost by putting something where no directory is. -/
theorem grows_put {volume : Volume} {names : List String} {entries : List (String × Volume)}
    (found : volume.find? names = some (.directory entries)) {name : String}
    (noDirectory : ∀ inner, Fields.get? entries name ≠ some (.directory inner)) (new : Volume) :
    Grows volume (volume.put new (names ++ [name])) := by
  induction names generalizing volume with
  | nil =>
      cases found
      rw [List.nil_append, put_singleton]
      apply grows_directory
      intro inner present
      cases inner with
      | file content => exact grows_file content new
      | directory inner => exact absurd present (noDirectory inner)
  | cons first rest ih =>
      rcases find?_cons_eq_some_iff.mp found with ⟨siblings, inner, rfl, present, found⟩
      rw [List.cons_append, put_cons present]
      apply grows_directory
      intro other here
      cases Option.some.inj (here.symm.trans present)
      exact ih found

/-! ## Following steps -/

/-- A step is ordinary if it names an entry. -/
structure Ordinary (step : String) : Prop where
  moves : staysPut step = false
  down : step ≠ stepUp
  short : isTooLong step = false

theorem follow_append (volume : Volume) (names front rest : List String) :
    volume.follow names (front ++ rest) =
      (volume.follow names front >>= fun place => volume.follow place rest) := by
  induction front generalizing names with
  | nil => rfl
  | cons step front ih =>
      rw [List.cons_append, follow, follow]
      split
      · rfl
      · rfl
      · split
        · exact ih _
        split
        · exact ih _
        split
        · rfl
        split
        · exact ih _
        · rfl

/-- How a step leads on from a directory with its entries. -/
inductive Moves (names : List String) (entries : List (String × Volume)) (step : String) :
    List String → Prop
  | stay (stays : staysPut step = true) : Moves names entries step names
  | up (moves : ¬ staysPut step = true) (up : step = stepUp) :
      Moves names entries step names.dropLast
  | down (moves : ¬ staysPut step = true) (down : step ≠ stepUp) (short : ¬ isTooLong step = true)
      (bound : Fields.has entries step = true) : Moves names entries step (names ++ [step])

/-- A step can be followed when it leads on from the directory that was reached. -/
theorem follow_cons_eq_ok_iff {volume : Volume} {names rest place : List String} {step : String} :
    volume.follow names (step :: rest) = .ok place ↔
      ∃ entries next, volume.find? names = some (.directory entries) ∧
        Moves names entries step next ∧ volume.follow next rest = .ok place := by
  constructor
  · intro reached
    rw [follow] at reached
    split at reached
    · contradiction
    · contradiction
    · rename_i entries found
      split at reached
      · rename_i stays
        exact ⟨entries, names, found, .stay stays, reached⟩
      rename_i moves
      split at reached
      · rename_i up
        exact ⟨entries, names.dropLast, found, .up moves up, reached⟩
      rename_i down
      split at reached
      · contradiction
      rename_i short
      split at reached
      · rename_i bound
        exact ⟨entries, names ++ [step], found, .down moves down short bound, reached⟩
      · contradiction
  · rintro ⟨entries, next, found, moved, reached⟩
    rw [follow, found]
    cases moved with
    | stay stays => simpa only [if_pos stays] using reached
    | up moves up => simpa only [if_neg moves, if_pos up] using reached
    | down moves down short bound =>
        simpa only [if_neg moves, if_neg down, if_neg short, if_pos bound] using reached

/-- A step still leads on when no name is lost. -/
theorem Moves.mono {names next : List String} {entries more : List (String × Volume)}
    {step : String} (moved : Moves names entries step next)
    (kept : ∀ name, Fields.has entries name = true → Fields.has more name = true) :
    Moves names more step next := by
  cases moved with
  | stay stays => exact .stay stays
  | up moves up => exact .up moves up
  | down moves down short bound => exact .down moves down short (kept _ bound)

/-- What was reached is still reached when nothing is lost. -/
theorem Grows.follow {volume grown : Volume} (grows : Grows volume grown)
    {names steps place : List String} (reached : volume.follow names steps = .ok place) :
    grown.follow names steps = .ok place := by
  induction steps generalizing names with
  | nil => exact reached
  | cons step rest ih =>
      rcases follow_cons_eq_ok_iff.mp reached with ⟨entries, next, found, moved, onward⟩
      rcases grows _ _ found with ⟨more, there, kept⟩
      exact follow_cons_eq_ok_iff.mpr ⟨more, next, there, moved.mono kept, ih onward⟩

/-- No directory has to be made on the way to one that is there. -/
theorem makeSteps_append {volume : Volume} {names steps place : List String}
    (reached : volume.follow names steps = .ok place) {entries : List (String × Volume)}
    (found : volume.find? place = some (.directory entries)) (more : List String) :
    volume.makeSteps names (steps ++ more) = volume.makeSteps place more := by
  induction steps generalizing names with
  | nil =>
      cases reached
      rfl
  | cons step rest ih =>
      rcases follow_cons_eq_ok_iff.mp reached with ⟨siblings, next, here, moved, onward⟩
      rw [List.cons_append, makeSteps, here]
      dsimp only
      cases moved with
      | stay stays =>
          rw [if_pos stays]
          exact ih onward
      | up moves up =>
          rw [if_neg moves, if_pos up]
          exact ih onward
      | down moves down short bound =>
          rw [if_neg moves, if_neg down, if_neg short]
          have inside := find?_concat here step
          rcases Option.isSome_iff_exists.mp bound with ⟨inner, present⟩
          rw [present] at inside ⊢
          cases inner with
          | directory inner => exact ih onward
          | file content =>
              -- Behind a file there is nothing, and it is no directory itself.
              cases rest with
              | nil =>
                  cases onward
                  rw [inside] at found
                  cases Option.some.inj found
              | cons second rest =>
                  rw [follow, inside] at onward
                  contradiction

end Folio.Volume
