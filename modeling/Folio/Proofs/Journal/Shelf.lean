import Folio.Proofs.Files.Making
import Folio.Proofs.Journal.Segments

/-!
# The journal on its volume

The directory of a journal holds one file for each time at which the journal was opened,
and in it the lines of the records that were written since.  Opening the journal adds a
file, writing a record adds a line to the last one, and replaying reads all of them.
-/

namespace Folio.Journal

open Volume

/-! ## The files of a journal -/

/-- The files of a journal after records were written. -/
def shelf (log : Log) (names : List String) : List (String × Volume) :=
  names.map fun name => (name, .file (contentOf (under log name)))

section Shelf

variable {log : Log} {names : List String} {name : String}

theorem names_shelf (log : Log) (names : List String) : (shelf log names).map Prod.fst = names := by
  simp [shelf, Function.comp_def]

theorem get?_shelf (log : Log) (member : name ∈ names) :
    Fields.get? (shelf log names) name = some (.file (contentOf (under log name))) := by
  induction names with
  | nil => simp at member
  | cons other rest ih =>
      rw [shelf, List.map_cons, Fields.get?_cons]
      split
      · rename_i same
        rw [same]
      · rename_i different
        rcases List.mem_cons.mp member with same | member
        · exact absurd same.symm different
        · exact ih member

theorem get?_shelf_eq_none (log : Log) (absent : name ∉ names) :
    Fields.get? (shelf log names) name = none := by
  rw [Fields.get?_eq_none_iff, Fields.names, names_shelf]
  exact absent

theorem shelf_concat (absent : name ∉ names) (unused : under log name = []) :
    Fields.put (shelf log names) name (.file ByteArray.empty) = shelf log (names ++ [name]) := by
  have free : name ∉ Fields.names (shelf log names) := by
    rw [Fields.names, names_shelf]
    exact absent
  rw [Fields.put_of_not_mem free]
  simp [shelf, unused]

/-- A record that is written changes the file of its segment only. -/
theorem shelf_write (distinct : names.Nodup) (member : name ∈ names) (entry : JournalRecord) :
    Fields.put (shelf log names) name (.file (contentOf (under log name) ++ bytesOf entry)) =
      shelf (log ++ [(name, entry)]) names := by
  have other {names : List String} (absent : name ∉ names) :
      shelf (log ++ [(name, entry)]) names = shelf log names := by
    refine List.map_congr_left fun other member => ?_
    have different : name ≠ other := by
      rintro rfl
      exact absent member
    rw [under_append, under_singleton_of_ne different, List.append_nil]
  rcases List.append_of_mem member with ⟨front, rest, rfl⟩
  rcases List.nodup_append.mp distinct with ⟨_, distinctRest, apart⟩
  have absentFront : name ∉ front := fun inside =>
    apart name inside name List.mem_cons_self rfl
  have absentRest : name ∉ rest := (List.nodup_cons.mp distinctRest).1
  have split (log : Log) : shelf log (front ++ name :: rest) =
      shelf log front ++ (name, .file (contentOf (under log name))) :: shelf log rest := by
    simp [shelf]
  have free : name ∉ Fields.names (shelf log front) := by
    rw [Fields.names, names_shelf]
    exact absentFront
  rw [split, split, other absentFront, other absentRest, Fields.put_append_of_not_mem free,
    Fields.put_cons, if_pos rfl, under_append, under_singleton_self, contentOf_concat]

end Shelf

/-! ## The directory of a journal -/

/-- Whether the file that is started at a time can be made: neither its name nor its path
is too long. -/
structure Fits (directory : Path) (now : Nat) : Prop where
  name : isTooLong (segmentName now) = false
  path : (directory.join (segmentName now)).size ≤ maxPathSize

/-- The name of a segment names an entry. -/
theorem Fits.ordinary {directory : Path} {now : Nat} (fits : Fits directory now) :
    Ordinary (segmentName now) where
  moves := (isLog_segmentName now).moves
  down := (isLog_segmentName now).down
  short := fits.name

/-- The records that the files of a journal are read as. -/
def replayed (log : Log) (names : List String) : List JournalRecord :=
  (ascending names).flatMap fun name => (under log name).filterMap reread?

/-- Whether a directory on a volume holds the journal with a log, whose segments were
started at the given times. -/
structure Holds (volume : Volume) (directory : Path) (place : List String) (log : Log)
    (times : List Nat) : Prop where
  leads : Leads volume directory place (shelf log (times.map segmentName))
  filed : ∀ entry ∈ log, entry.1 ∈ times.map segmentName
  fits : ∀ time ∈ times, Fits directory time
  distinct : times.Nodup
  short : directory.size ≤ maxPathSize
  named : directory.isEmpty = false

section Holds

variable {volume : Volume} {directory : Path} {place : List String} {log : Log}
  {times : List Nat}

theorem Holds.nodup_names (holds : Holds volume directory place log times) :
    (times.map segmentName).Nodup :=
  holds.distinct.map segmentName_injective

/-- The segments of the journal have the contents that their records make up. -/
theorem Holds.segmentsIn (holds : Holds volume directory place log times) :
    Journal.segmentsIn volume directory =
      .ok (((ascending (times.map segmentName)).map (under log)).map
        fun records => .ok (contentOf records)) := by
  have all : ∀ name ∈ times.map segmentName, isSegment name = true := by
    intro name member
    rcases List.mem_map.mp member with ⟨time, _, rfl⟩
    exact isSegment_segmentName time
  have contents : (ascending (times.map segmentName)).map
        (fun name => volume.readFile (directory.join name)) =
      ((ascending (times.map segmentName)).map (under log)).map
        fun records => .ok (contentOf records) := by
    rw [List.map_map]
    refine List.map_congr_left fun name member => ?_
    have opened := (ascending_perm _).mem_iff.mp member
    rcases List.mem_map.mp opened with ⟨time, present, rfl⟩
    have fits := holds.fits time present
    exact holds.leads.readFile fits.ordinary fits.path (get?_shelf log opened)
  rw [Journal.segmentsIn, holds.leads.listDirectory holds.short holds.named, ← contents]
  simp only [names_shelf, segmentNames_eq all]

/-- All files of the journal are read. -/
theorem Holds.replay (holds : Holds volume directory place log times) :
    Journal.replay volume directory = .ok (replayed log (times.map segmentName)) := by
  rw [Journal.replay, holds.segmentsIn]
  simp only [bind, Except.bind, recordsOf_contentOf, replayed, List.flatMap_map]

/-- The lines of the journal are those of its records, segment by segment. -/
theorem Holds.allLines (holds : Holds volume directory place log times) :
    Journal.allLines volume directory =
      ((ascending (times.map segmentName)).flatMap (under log)).map
        fun entry => String.ofList entry.line := by
  have text : ((ascending (times.map segmentName)).flatMap fun name => charsOf (under log name)) =
      charsOf ((ascending (times.map segmentName)).flatMap (under log)) := by
    rw [charsOf, List.flatMap_assoc]
    rfl
  rw [Journal.allLines, holds.segmentsIn]
  simp only [List.flatMap_map, textOf_contentOf, String.toList_ofList]
  rw [text, lines_charsOf, List.map_map]
  rfl

/-- Opening the journal adds an empty file. -/
theorem Holds.start (holds : Holds volume directory place log times) {now : Nat}
    (fits : Fits directory now) (new : now ∉ times) :
    ∃ opened, Journal.start volume directory now =
        .ok (opened, ⟨place ++ [segmentName now]⟩) ∧
      Holds opened directory place log (times ++ [now]) := by
  have absent : segmentName now ∉ times.map segmentName := by
    intro member
    rcases List.mem_map.mp member with ⟨time, present, same⟩
    rw [segmentName_injective same] at present
    exact new present
  have missing := get?_shelf_eq_none log absent
  have unused : under log (segmentName now) = [] := by
    rw [List.eq_nil_iff_forall_not_mem]
    intro entry member
    exact absent (holds.filed _ (mem_under.mp member))
  refine ⟨volume.put (.file ByteArray.empty) (place ++ [segmentName now]), ?_, ?_⟩
  · rw [Journal.start, holds.leads.makeDirectories holds.short]
    simp only [bind, Except.bind, holds.leads.openForAppend fits.ordinary fits.path missing]
    rfl
  · have noDirectory : ∀ inner, Fields.get? (shelf log (times.map segmentName)) (segmentName now) ≠
        some (.directory inner) := by simp [missing]
    have put := holds.leads.put noDirectory (.file ByteArray.empty)
    rw [shelf_concat absent unused] at put
    refine ⟨?_, ?_, ?_, ?_, holds.short, holds.named⟩
    · simpa using put
    · intro entry member
      rw [List.map_append]
      exact List.mem_append_left _ (holds.filed entry member)
    · intro time member
      rcases List.mem_append.mp member with old | last
      · exact holds.fits time old
      · rw [List.mem_singleton.mp last]
        exact fits
    · rw [List.nodup_append]
      refine ⟨holds.distinct, List.nodup_singleton _, ?_⟩
      rintro time member _ last rfl
      rw [List.mem_singleton.mp last] at member
      exact new member

/-- Writing a record adds it to the log. -/
theorem Holds.append (holds : Holds volume directory place log times) {now : Nat}
    (opened : now ∈ times) (entry : JournalRecord) :
    ∃ written, Journal.append ⟨place ++ [segmentName now]⟩ volume false entry = .ok written ∧
      Holds written directory place (log ++ [(segmentName now, entry)]) times := by
  have member : segmentName now ∈ times.map segmentName := List.mem_map_of_mem opened
  have present := get?_shelf log member
  refine ⟨volume.put (.file (contentOf (under log (segmentName now)) ++ bytesOf entry))
    (place ++ [segmentName now]), ?_, ?_⟩
  · rw [Journal.append, if_neg Bool.false_ne_true, holds.leads.append present]
  · have noDirectory : ∀ inner, Fields.get? (shelf log (times.map segmentName)) (segmentName now) ≠
        some (.directory inner) := by simp [present]
    have put := holds.leads.put noDirectory
      (.file (contentOf (under log (segmentName now)) ++ bytesOf entry))
    rw [shelf_write holds.nodup_names member] at put
    refine ⟨put, ?_, holds.fits, holds.distinct, holds.short, holds.named⟩
    intro other inside
    rcases List.mem_append.mp inside with old | last
    · exact holds.filed other old
    · rw [List.mem_singleton.mp last]
      exact member

end Holds

/-! ## A new journal -/

/-- Opening a journal makes its directories and opens its segment in the last of them. -/
theorem exists_of_start {volume opened : Volume} {directory : Path} {now : Nat}
    {journal : Journal} (started : Journal.start volume directory now = .ok (opened, journal)) :
    ∃ made place entries, directory.size ≤ maxPathSize ∧
      volume.makeSteps directory.start directory.steps = .ok (made, place) ∧
      journal = ⟨place ++ [segmentName now]⟩ ∧
      Opens made directory (segmentName now) opened place entries := by
  rcases bind_eq_ok_iff.mp started with ⟨⟨made, reached⟩, directories, started⟩
  rcases bind_eq_ok_iff.mp started with ⟨⟨last, names⟩, file, same⟩
  cases same
  rcases exists_of_openForAppend file with ⟨place, entries, rfl, opens⟩
  rw [Volume.makeDirectories] at directories
  split at directories
  · contradiction
  · rename_i short
    have along := (follow_of_makeSteps directories).2
    rw [opens.leads.reached] at along
    cases along
    exact ⟨made, _, entries, Nat.not_lt.mp short, directories, rfl, opens⟩

/-- A journal that could be opened has a file that could be made. -/
theorem fits_of_start {volume : Volume} {directory : Path} {now : Nat}
    {opened : Volume × Journal} (started : Journal.start volume directory now = .ok opened) :
    Fits directory now := by
  rcases exists_of_start started with ⟨_, _, _, _, _, _, opens⟩
  exact ⟨opens.ordinary.short, opens.short⟩

section New

variable {volume : Volume} {parent : Path} {place : List String} {name : String}

theorem replay_missing (leads : Leads volume parent place []) (ordinary : Ordinary name)
    (short : (parent.join name).size ≤ maxPathSize) :
    Journal.replay volume (parent.join name) = .ok [] := by
  rw [Journal.replay, segmentsIn, leads.listDirectory_missing ordinary short rfl]
  rfl

/-- Opening a journal where none is makes its directory. -/
theorem start_missing (leads : Leads volume parent place []) (ordinary : Ordinary name)
    {now : Nat} (fits : Fits (parent.join name) now) :
    ∃ opened, Journal.start volume (parent.join name) now =
        .ok (opened, ⟨place ++ [name] ++ [segmentName now]⟩) ∧
      Holds opened (parent.join name) (place ++ [name]) [] [now] := by
  have named : name ≠ "" := by
    rintro rfl
    exact absurd ordinary.moves (by decide)
  have short : (parent.join name).size ≤ maxPathSize :=
    Nat.le_trans (Path.size_join_le parent named _) fits.path
  have made := leads.makeDirectories_missing ordinary short rfl
  have inside : Leads (volume.put empty (place ++ [name])) (parent.join name) (place ++ [name])
      (shelf [] []) :=
    (leads.put (by simp) empty).join ordinary (Fields.get?_put_self _ _ _)
  have empty : Holds (volume.put empty (place ++ [name])) (parent.join name) (place ++ [name])
      [] [] :=
    ⟨inside, by simp, by simp, List.nodup_nil, short, parent.isEmpty_join named⟩
  rcases empty.start fits List.not_mem_nil with ⟨opened, run, holds⟩
  refine ⟨opened, ?_, holds⟩
  rw [Journal.start, made]
  rw [Journal.start, inside.makeDirectories short] at run
  exact run

end New

end Folio.Journal
