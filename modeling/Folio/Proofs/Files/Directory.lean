import Folio.Proofs.Attempt
import Folio.Proofs.Files.Volume

/-!
# The directory at the end of a path

What is done through a path is done to the directory that it leads to: its entries are
listed, a file in it is read, made or written at its end, and a directory that is
missing in it is made.
-/

namespace Folio

namespace Path

/-- The steps of a path without a slash at its end. -/
def trimmed (path : Path) : List String :=
  if path.steps.getLast? = some "" then path.steps.dropLast else path.steps

theorem steps_join (path : Path) (name : String) :
    (path.join name).steps = path.trimmed ++ [name] := rfl

theorem start_join (path : Path) (name : String) : (path.join name).start = path.start := rfl

/-- A path that goes on with a name is not empty. -/
theorem isEmpty_join (path : Path) {name : String} (named : name ≠ "") :
    (path.join name).isEmpty = false := by
  rw [isEmpty, steps_join, decide_eq_false_iff_not]
  intro same
  have last := congrArg List.getLast? same
  rw [List.getLast?_concat] at last
  exact named (Option.some.inj last)

/-- Going on from a path that ends with a name makes it longer. -/
theorem size_join_le (path : Path) {name : String} (named : name ≠ "") (more : String) :
    (path.join name).size ≤ ((path.join name).join more).size := by
  have bare : (path.join name).steps.getLast? ≠ some "" := by
    rw [steps_join, List.getLast?_concat]
    simpa using named
  have steps : ((path.join name).join more).steps = (path.join name).steps ++ [more] := by
    rw [steps_join (path.join name), trimmed, if_neg bare]
  rw [size, size, steps, List.foldr_append]
  have grows (steps : List String) {first second : Nat} (le : first ≤ second) :
      steps.foldr (fun step rest => Text.width step.toList + 1 + rest) first ≤
        steps.foldr (fun step rest => Text.width step.toList + 1 + rest) second := by
    induction steps with
    | nil => exact le
    | cons step rest ih =>
        rw [List.foldr_cons, List.foldr_cons]
        exact Nat.add_le_add_left ih _
  exact Nat.sub_le_sub_right (grows _ (Nat.zero_le _)) 1

end Path

namespace Volume

section Locating

variable {volume : Volume} {path : Path}

theorem locate_of_long (long : maxPathSize < path.size) :
    volume.locate path = .error .nameTooLong := by
  rw [locate, if_pos long]
  rfl

theorem locate_of_isEmpty (short : path.size ≤ maxPathSize) (empty : path.isEmpty = true) :
    volume.locate path = .error .notFound := by
  rw [locate, if_neg (Nat.not_lt.mpr short), if_pos empty]
  rfl

theorem locate_of_named (short : path.size ≤ maxPathSize) (named : path.isEmpty = false) :
    volume.locate path = (volume.follow path.start path.steps >>= fun place =>
      match volume.find? place with
      | some found => .ok found
      | none => .error .notFound) := by
  rw [locate, if_neg (Nat.not_lt.mpr short), if_neg (Bool.eq_false_iff.mp named)]
  rfl

theorem locate_eq_ok_iff {found : Volume} :
    volume.locate path = .ok found ↔
      path.size ≤ maxPathSize ∧ path.isEmpty = false ∧
        ∃ place, volume.follow path.start path.steps = .ok place ∧
          volume.find? place = some found := by
  by_cases short : path.size ≤ maxPathSize
  case neg => simp [locate_of_long (Nat.not_le.mp short), short]
  cases named : path.isEmpty with
  | true => simp [locate_of_isEmpty short named]
  | false =>
      rw [locate_of_named short named, bind_eq_ok_iff]
      simp only [short, true_and]
      refine exists_congr fun place => and_congr_right fun _ => ?_
      cases volume.find? place <;> simp

theorem listDirectory_eq_ok_iff {entries : List (String × Volume)} :
    volume.listDirectory path = .ok entries ↔ volume.locate path = .ok (.directory entries) := by
  rw [listDirectory]
  rcases volume.locate path with error | (content | inside)
  · exact ⟨nofun, nofun⟩
  · exact ⟨nofun, nofun⟩
  · exact ⟨fun listed => by cases listed; rfl, fun located => by cases located; rfl⟩

end Locating

/-- Whether a path leads to a directory with the given entries, which stands at the end
of the given names. -/
structure Leads (volume : Volume) (path : Path) (place : List String)
    (entries : List (String × Volume)) : Prop where
  reached : volume.follow path.start path.steps = .ok place
  found : volume.find? place = some (.directory entries)

section Leads

variable {volume : Volume} {path : Path} {place : List String}
  {entries : List (String × Volume)} {name : String}

theorem leads_of_listDirectory (listed : volume.listDirectory path = .ok entries) :
    ∃ place, Leads volume path place entries ∧ path.size ≤ maxPathSize ∧ path.isEmpty = false := by
  rw [listDirectory_eq_ok_iff, locate_eq_ok_iff] at listed
  rcases listed with ⟨short, named, place, reached, found⟩
  exact ⟨place, ⟨reached, found⟩, short, named⟩

/-- The directory at the end of a path is listed. -/
theorem Leads.listDirectory (leads : Leads volume path place entries)
    (short : path.size ≤ maxPathSize) (named : path.isEmpty = false) :
    volume.listDirectory path = .ok entries := by
  rw [listDirectory_eq_ok_iff, locate_eq_ok_iff]
  exact ⟨short, named, place, leads.reached, leads.found⟩

/-- A slash at the end of a path makes no difference. -/
theorem Leads.follow_trimmed (leads : Leads volume path place entries) :
    volume.follow path.start path.trimmed = .ok place := by
  rw [Path.trimmed]
  split
  · rename_i slash
    have reached := leads.reached
    rcases List.getLast?_eq_some_iff.mp slash with ⟨front, split⟩
    rw [split, follow_append] at reached
    rw [split, List.dropLast_concat]
    cases first : volume.follow path.start front with
    | error error =>
        rw [first] at reached
        contradiction
    | ok before =>
        rw [first] at reached
        have step : volume.follow before [""] = .ok place := reached
        rw [follow] at step
        split at step
        · contradiction
        · contradiction
        · simp only [staysPut, decide_true, Bool.true_or, if_true, follow] at step
          exact step
  · exact leads.reached

theorem Leads.follow_join (leads : Leads volume path place entries) (ordinary : Ordinary name) :
    volume.follow (path.join name).start (path.join name).steps =
      if Fields.has entries name then .ok (place ++ [name]) else .error .notFound := by
  rw [Path.steps_join, Path.start_join, follow_append, leads.follow_trimmed]
  simp only [bind, Except.bind, follow, leads.found, ordinary.moves, ordinary.down,
    ordinary.short, if_false, Bool.false_eq_true]

/-- What is read in a directory depends on the entry that has the name. -/
theorem Leads.readFile_eq (leads : Leads volume path place entries)
    (moves : staysPut name = false) (down : name ≠ stepUp) :
    volume.readFile (path.join name) =
      if maxPathSize < (path.join name).size ∨ isTooLong name then .error .nameTooLong
      else match Fields.get? entries name with
        | some (.file content) => .ok content
        | some (.directory _) => .error .isADirectory
        | none => .error .notFound := by
  have named : name ≠ "" := by
    rintro rfl
    exact absurd moves (by decide)
  have ends : volume.follow (path.join name).start (path.join name).steps =
      if isTooLong name then .error .nameTooLong
      else if Fields.has entries name then .ok (place ++ [name]) else .error .notFound := by
    rw [Path.steps_join, Path.start_join, follow_append, leads.follow_trimmed]
    simp only [bind, Except.bind, follow, leads.found, moves, down, if_false, Bool.false_eq_true]
  by_cases long : maxPathSize < (path.join name).size
  · rw [Volume.readFile, locate_of_long long, if_pos (.inl long)]
    rfl
  rw [Volume.readFile, locate_of_named (Nat.not_lt.mp long) (path.isEmpty_join named), ends]
  by_cases wide : isTooLong name
  · rw [if_pos wide, if_pos (.inr wide)]
    rfl
  rw [if_neg wide, if_neg (not_or.mpr ⟨long, wide⟩), Fields.has]
  have inner := find?_concat leads.found name
  cases present : Fields.get? entries name with
  | none => rfl
  | some found =>
      rw [present] at inner
      simp only [Option.isSome_some, if_true, bind, Except.bind, inner]
      cases found <;> rfl

/-- A file in the directory is read. -/
theorem Leads.readFile (leads : Leads volume path place entries) (ordinary : Ordinary name)
    (short : (path.join name).size ≤ maxPathSize) {content : ByteArray}
    (present : Fields.get? entries name = some (.file content)) :
    volume.readFile (path.join name) = .ok content := by
  have fits : ¬ (maxPathSize < (path.join name).size ∨ isTooLong name = true) := by
    rw [not_or, Nat.not_lt, ordinary.short]
    exact ⟨short, Bool.false_ne_true⟩
  rw [leads.readFile_eq ordinary.moves ordinary.down, if_neg fits, present]

/-- What is missing in the directory cannot be listed. -/
theorem Leads.listDirectory_missing (leads : Leads volume path place entries)
    (ordinary : Ordinary name) (short : (path.join name).size ≤ maxPathSize)
    (missing : Fields.get? entries name = none) :
    volume.listDirectory (path.join name) = .error .notFound := by
  have named : name ≠ "" := by
    rintro rfl
    exact absurd ordinary.moves (by decide)
  have free : Fields.has entries name = false := by
    rw [Fields.has, missing]
    rfl
  rw [Volume.listDirectory, locate_of_named short (path.isEmpty_join named),
    leads.follow_join ordinary, free]
  rfl

/-- A directory that is there is not made again. -/
theorem Leads.makeDirectories (leads : Leads volume path place entries)
    (short : path.size ≤ maxPathSize) : volume.makeDirectories path = .ok (volume, place) := by
  have same := makeSteps_append leads.reached leads.found []
  rw [List.append_nil] at same
  rw [Volume.makeDirectories, if_neg (Nat.not_lt.mpr short), same, makeSteps]

theorem Leads.makeDirectories_missing (leads : Leads volume path place entries)
    (ordinary : Ordinary name) (short : (path.join name).size ≤ maxPathSize)
    (missing : Fields.get? entries name = none) :
    volume.makeDirectories (path.join name) =
      .ok (volume.put empty (place ++ [name]), place ++ [name]) := by
  rw [Volume.makeDirectories, if_neg (Nat.not_lt.mpr short), Path.steps_join, Path.start_join,
    makeSteps_append leads.follow_trimmed leads.found]
  simp only [makeSteps, leads.found, ordinary.moves, ordinary.down, ordinary.short, missing,
    if_false, Bool.false_eq_true]

/-- A path still leads to a directory after something was put into that directory. -/
theorem Leads.put (leads : Leads volume path place entries)
    (noDirectory : ∀ inner, Fields.get? entries name ≠ some (.directory inner)) (new : Volume) :
    Leads (volume.put new (place ++ [name])) path place (Fields.put entries name new) where
  reached := (grows_put leads.found noDirectory new).follow leads.reached
  found := find?_put leads.found name new

/-- A path leads into a directory that was made. -/
theorem Leads.join (leads : Leads volume path place entries) (ordinary : Ordinary name)
    {inside : List (String × Volume)}
    (present : Fields.get? entries name = some (.directory inside)) :
    Leads volume (path.join name) (place ++ [name]) inside where
  reached := by
    have bound : Fields.has entries name = true := Option.isSome_of_eq_some present
    rw [leads.follow_join ordinary, if_pos bound]
  found := by rw [find?_concat leads.found, present]

theorem leads_of_trimmed (reached : volume.follow path.start path.trimmed = .ok place)
    (found : volume.find? place = some (.directory entries)) :
    Leads volume path place entries := by
  refine ⟨?_, found⟩
  rw [Path.trimmed] at reached
  split at reached
  · rename_i slash
    rcases List.getLast?_eq_some_iff.mp slash with ⟨front, split⟩
    rw [split, List.dropLast_concat] at reached
    rw [split, follow_append, reached]
    simp only [bind, Except.bind, follow, found]
    rfl
  · exact reached

/-- How a file is found that is opened by its name, in a directory that is there: it is
made if it is missing. -/
structure Opens (volume : Volume) (path : Path) (name : String) (opened : Volume)
    (place : List String) (entries : List (String × Volume)) : Prop where
  leads : Leads volume path place entries
  short : (path.join name).size ≤ maxPathSize
  ordinary : Ordinary name
  file : (Fields.get? entries name = none ∧
      opened = volume.put (.file ByteArray.empty) (place ++ [name])) ∨
    ((∃ content, Fields.get? entries name = some (.file content)) ∧ opened = volume)

/-- A file is opened by its name in a directory. -/
theorem exists_of_openForAppend {opened : Volume} {names : List String}
    (succeeds : volume.openForAppend (path.join name) = .ok (opened, names)) :
    ∃ place entries, names = place ++ [name] ∧ Opens volume path name opened place entries := by
  have fits : ¬ maxPathSize < (path.join name).size := by
    intro long
    rw [Volume.openForAppend, if_pos long] at succeeds
    contradiction
  have last : (path.join name).steps.getLast?.getD "" = name := by
    rw [Path.steps_join, List.getLast?_concat, Option.getD_some]
  have front : (path.join name).steps.dropLast = path.trimmed := by
    rw [Path.steps_join, List.dropLast_concat]
  simp only [Volume.openForAppend, if_neg fits, last, front, Path.start_join] at succeeds
  rcases bind_eq_ok_iff.mp succeeds with ⟨place, reached, succeeds⟩
  split at succeeds
  · contradiction
  · contradiction
  · rename_i entries found
    split at succeeds
    · contradiction
    rename_i ordinary
    rw [Bool.or_eq_true, not_or, decide_eq_true_eq] at ordinary
    split at succeeds
    · contradiction
    rename_i narrow
    have leads := leads_of_trimmed reached found
    have short := Nat.not_lt.mp fits
    have names : Ordinary name :=
      ⟨Bool.eq_false_iff.mpr ordinary.1, ordinary.2, Bool.eq_false_iff.mpr narrow⟩
    split at succeeds
    · contradiction
    · rename_i content present
      cases succeeds
      exact ⟨place, entries, rfl, leads, short, names, .inr ⟨⟨content, present⟩, rfl⟩⟩
    · rename_i missing
      cases succeeds
      exact ⟨place, entries, rfl, leads, short, names, .inl ⟨missing, rfl⟩⟩

/-- A file that is missing is made when it is opened. -/
theorem Leads.openForAppend (leads : Leads volume path place entries) (ordinary : Ordinary name)
    (short : (path.join name).size ≤ maxPathSize) (missing : Fields.get? entries name = none) :
    volume.openForAppend (path.join name) =
      .ok (volume.put (.file ByteArray.empty) (place ++ [name]), place ++ [name]) := by
  have fits : ¬ maxPathSize < (path.join name).size := Nat.not_lt.mpr short
  have front : volume.follow (path.join name).start (path.join name).steps.dropLast =
      .ok place := by
    rw [Path.steps_join, Path.start_join, List.dropLast_concat]
    exact leads.follow_trimmed
  have last : (path.join name).steps.getLast?.getD "" = name := by
    rw [Path.steps_join, List.getLast?_concat, Option.getD_some]
  have goes : ¬ (staysPut name = true ∨ name = stepUp) := by
    rintro (stays | up)
    · rw [ordinary.moves] at stays
      contradiction
    · exact ordinary.down up
  simp only [Volume.openForAppend, if_neg fits, front, last, leads.found, missing, bind,
    Except.bind, pure, Except.pure, ordinary.moves, ordinary.down, ordinary.short,
    Bool.false_or, decide_false, Bool.false_eq_true, if_false]

/-- Bytes are written behind the content of a file. -/
theorem Leads.append (leads : Leads volume path place entries) {content : ByteArray}
    (present : Fields.get? entries name = some (.file content)) (bytes : ByteArray) :
    volume.append (place ++ [name]) bytes =
      volume.put (.file (content ++ bytes)) (place ++ [name]) := by
  rw [Volume.append, find?_concat leads.found, present]

end Leads

end Volume

end Folio
