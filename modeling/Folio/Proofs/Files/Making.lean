import Folio.Proofs.Files.Directory

/-!
# Directories that are made

Making the directories of a path moves through those that are there and makes the others
one by one, each of them empty.  Nothing is lost on the way, the path leads to its end
afterwards, and no directory gets two entries of one name.
-/

namespace Folio.Volume

variable {volume grown : Volume} {names place steps rest : List String} {step : String}
  {entries : List (String × Volume)}

theorem Grows.refl (volume : Volume) : Grows volume volume :=
  fun _ entries found => ⟨entries, found, fun _ => id⟩

theorem Grows.trans {middle : Volume} (first : Grows volume middle) (second : Grows middle grown) :
    Grows volume grown := by
  intro names entries found
  rcases first names entries found with ⟨more, there, kept⟩
  rcases second names more there with ⟨most, last, keptToo⟩
  exact ⟨most, last, fun name bound => keptToo name (kept name bound)⟩

/-! ## One step -/

/-- How a directory of a path is reached: by moving on, or by making it. -/
inductive Reaches (volume : Volume) (names : List String) (entries : List (String × Volume))
    (step : String) : Volume → List String → Prop
  | moves {next : List String} (moved : Moves names entries step next) :
      Reaches volume names entries step volume next
  | makes (ordinary : Ordinary step) (missing : Fields.get? entries step = none) :
      Reaches volume names entries step (volume.put empty (names ++ [step])) (names ++ [step])

/-- Directories are made step by step. -/
theorem exists_of_makeSteps_cons
    (made : volume.makeSteps names (step :: rest) = .ok (grown, place)) :
    ∃ entries between next, volume.find? names = some (.directory entries) ∧
      Reaches volume names entries step between next ∧
      between.makeSteps next rest = .ok (grown, place) := by
  rw [makeSteps] at made
  split at made
  · contradiction
  · contradiction
  · rename_i entries found
    split at made
    · rename_i stays
      exact ⟨entries, volume, names, found, .moves (.stay stays), made⟩
    rename_i moves
    split at made
    · rename_i up
      exact ⟨entries, volume, names.dropLast, found, .moves (.up moves up), made⟩
    rename_i down
    split at made
    · contradiction
    rename_i short
    split at made
    · rename_i inner present
      have bound : Fields.has entries step = true := Option.isSome_of_eq_some present
      exact ⟨entries, volume, names ++ [step], found, .moves (.down moves down short bound), made⟩
    · contradiction
    · rename_i missing
      have ordinary : Ordinary step :=
        ⟨Bool.eq_false_iff.mpr moves, down, Bool.eq_false_iff.mpr short⟩
      exact ⟨entries, _, _, found, .makes ordinary missing, made⟩

/-! ## What is there afterwards -/

/-- Nothing is lost by one step, and the step can be followed afterwards. -/
theorem Reaches.grows {between : Volume} {next : List String}
    (reaches : Reaches volume names entries step between next)
    (found : volume.find? names = some (.directory entries)) :
    Grows volume between ∧ ∃ more, between.find? names = some (.directory more) ∧
      Moves names more step next := by
  cases reaches with
  | moves moved => exact ⟨.refl volume, entries, found, moved⟩
  | makes ordinary missing =>
      have noDirectory : ∀ inner, Fields.get? entries step ≠ some (.directory inner) := by
        simp [missing]
      have bound : Fields.has (Fields.put entries step empty) step = true :=
        Option.isSome_of_eq_some (Fields.get?_put_self entries step empty)
      refine ⟨grows_put found noDirectory empty, _, find?_put found step empty, ?_⟩
      exact .down (Bool.eq_false_iff.mp ordinary.moves) ordinary.down
        (Bool.eq_false_iff.mp ordinary.short) bound

/-- Making directories loses nothing, and they are reached afterwards. -/
theorem follow_of_makeSteps (made : volume.makeSteps names steps = .ok (grown, place)) :
    Grows volume grown ∧ grown.follow names steps = .ok place := by
  induction steps generalizing volume names with
  | nil =>
      cases made
      exact ⟨.refl _, rfl⟩
  | cons step rest ih =>
      rcases exists_of_makeSteps_cons made with ⟨entries, between, next, found, reaches, onward⟩
      rcases reaches.grows found with ⟨grows, more, there, moved⟩
      rcases ih onward with ⟨growsOn, reached⟩
      rcases growsOn _ _ there with ⟨most, last, kept⟩
      exact ⟨grows.trans growsOn,
        follow_cons_eq_ok_iff.mpr ⟨most, next, last, moved.mono kept, reached⟩⟩

/-! ## Empty directories -/

/-- Without going up nothing but empty directories is reached from one. -/
theorem find?_of_makeSteps (made : volume.makeSteps names steps = .ok (grown, place))
    (straight : stepUp ∉ steps) (vacant : volume.find? names = some (.directory [])) :
    grown.find? place = some (.directory []) := by
  induction steps generalizing volume names with
  | nil =>
      cases made
      exact vacant
  | cons step rest ih =>
      rw [List.mem_cons, not_or] at straight
      rcases exists_of_makeSteps_cons made with ⟨entries, between, next, found, reaches, onward⟩
      rw [vacant] at found
      cases found
      apply ih onward straight.2
      cases reaches with
      | moves moved =>
          cases moved with
          | stay _ => exact vacant
          | up _ up => exact absurd up.symm straight.1
          | down _ _ _ bound => contradiction
      | makes ordinary missing =>
          rw [find?_concat (find?_put vacant step empty), Fields.get?_put_self]
          rfl

/-- A directory that was not there is empty when it is made without going up. -/
theorem eq_nil_of_makeSteps (made : volume.makeSteps names steps = .ok (grown, place))
    (straight : stepUp ∉ steps)
    (unlisted : ∀ entries place, volume.follow names steps = .ok place →
      volume.find? place ≠ some (.directory entries))
    (found : grown.find? place = some (.directory entries)) : entries = [] := by
  induction steps generalizing volume names with
  | nil =>
      cases made
      exact absurd found (unlisted entries place rfl)
  | cons step rest ih =>
      rw [List.mem_cons, not_or] at straight
      rcases exists_of_makeSteps_cons made with ⟨siblings, between, next, here, reaches, onward⟩
      cases reaches with
      | moves moved =>
          refine ih onward straight.2 ?_
          intro inside place reached
          exact unlisted inside place
            (follow_cons_eq_ok_iff.mpr ⟨siblings, next, here, moved, reached⟩)
      | makes ordinary missing =>
          have vacant : (volume.put empty (names ++ [step])).find? (names ++ [step]) =
              some (.directory []) := by
            rw [find?_concat (find?_put here step empty), Fields.get?_put_self]
            rfl
          rw [find?_of_makeSteps onward straight.2 vacant] at found
          cases found
          rfl

/-! ## Distinct names -/

/-- Whether no directory has two entries of one name. -/
def Distinct (volume : Volume) : Prop :=
  ∀ names entries, volume.find? names = some (.directory entries) → (Fields.names entries).Nodup

theorem distinct_file (content : ByteArray) : Distinct (.file content) := by
  intro names entries found
  cases names <;> simp [find?] at found

theorem distinct_directory_iff :
    Distinct (.directory entries) ↔ (Fields.names entries).Nodup ∧
      ∀ name inner, Fields.get? entries name = some inner → inner.Distinct := by
  constructor
  · intro distinct
    refine ⟨distinct [] entries rfl, ?_⟩
    intro name inner present names inside found
    exact distinct (name :: names) inside
      (find?_cons_eq_some_iff.mpr ⟨entries, inner, rfl, present, found⟩)
  · rintro ⟨distinct, each⟩ names inside found
    cases names with
    | nil =>
        cases found
        exact distinct
    | cons name names =>
        rcases find?_cons_eq_some_iff.mp found with ⟨siblings, inner, same, present, onward⟩
        cases same
        exact each name inner present names inside onward

theorem distinct_empty : Distinct empty :=
  distinct_directory_iff.mpr ⟨List.nodup_nil, nofun⟩

/-- Binding a name keeps the names of a directory distinct. -/
theorem Distinct.directory_put (distinct : Distinct (.directory entries)) {name : String}
    {new : Volume} (newDistinct : new.Distinct) :
    Distinct (.directory (Fields.put entries name new)) := by
  rw [distinct_directory_iff] at distinct ⊢
  refine ⟨Fields.nodup_names_put distinct.1 name new, ?_⟩
  intro other inner present
  by_cases same : other = name
  · rw [same, Fields.get?_put_self] at present
    cases present
    exact newDistinct
  · rw [Fields.get?_put_of_ne _ _ same] at present
    exact distinct.2 other inner present

/-- Putting something somewhere keeps all names distinct. -/
theorem Distinct.put (distinct : volume.Distinct) {new : Volume} (newDistinct : new.Distinct)
    (names : List String) : (volume.put new names).Distinct := by
  induction names generalizing volume with
  | nil => exact newDistinct
  | cons name rest ih =>
      cases volume with
      | file content => exact distinct
      | directory entries =>
          rw [Volume.put]
          cases present : Fields.get? entries name with
          | some inner =>
              exact distinct.directory_put (ih ((distinct_directory_iff.mp distinct).2 _ _ present))
          | none =>
              dsimp only
              split
              · exact distinct.directory_put newDistinct
              · exact distinct

/-- Making directories keeps all names distinct. -/
theorem Distinct.makeSteps (distinct : volume.Distinct)
    (made : volume.makeSteps names steps = .ok (grown, place)) : grown.Distinct := by
  induction steps generalizing volume names with
  | nil =>
      cases made
      exact distinct
  | cons step rest ih =>
      rcases exists_of_makeSteps_cons made with ⟨entries, between, next, found, reaches, onward⟩
      cases reaches with
      | moves moved => exact ih distinct onward
      | makes ordinary missing => exact ih (distinct.put distinct_empty _) onward

end Folio.Volume
