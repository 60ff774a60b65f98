import Folio.Proofs.Collection.Forms
import Folio.Proofs.Selection.Built

/-!
# Binding an id anew

When an id that is bound in a catalogue is bound to other members, the document takes the
place of the one before.  If filters see no difference between the two, lists of ids stay as
they are; if the two are equal for whoever narrows them, all answers are equal.
-/

namespace Folio

/-- Whether two answers are equal, with documents compared as values. -/
def Found.Same : Found → Found → Prop
  | .document first, .document second => first.same second = true
  | .documents firsts, .documents seconds =>
      List.Forall₂ (fun first second => first.same second = true) firsts seconds
  | .ids firsts, .ids seconds => firsts = seconds
  | _, _ => False

/-- Whether two answers, either of which may be a refusal, are equal. -/
def SameAnswer : Except QueryError Found → Except QueryError Found → Prop
  | .ok first, .ok second => first.Same second
  | .error first, .error second => first = second
  | _, _ => False

/-- Whether a selection that is given as such is well formed. -/
def Query.WellFormed (query : Query) : Prop :=
  ∀ selection, query.fields = some (.tree selection) → Selection.WellFormed selection

theorem Query.WellFormed.of_reads {query : Query} (wellFormed : query.WellFormed)
    {selection : Selection} (reads : query.Reads (some selection)) :
    Selection.WellFormed selection := by
  unfold Query.Reads Query.reading at reads
  split at reads
  · cases reads
  · rename_i asked
    cases reads
    exact wellFormed selection asked
  · rcases map_eq_ok_iff.mp reads with ⟨given, resolved, same⟩
    cases same
    exact Selection.wellFormed_of_read resolved

namespace Collection

variable {collection : Collection} {catalogue : Catalogue} {id : String} {members : Fields Json}

theorem find_of_reads {query : Query} {fields : Option Selection} (reads : query.Reads fields) :
    Register.find collection catalogue query =
      Register.find.answer collection catalogue query fields := by
  rw [Register.find, reads]

/-- Narrowing a document to well-formed fields leaves it well formed. -/
theorem wellFormed_partOf {query : Query} (wellFormed : query.WellFormed)
    {fields : Option Selection} (reads : query.Reads fields) {entry : String × Fields Json}
    (formed : (Catalogue.document entry).WellFormed) :
    (partOf fields (Catalogue.document entry)).WellFormed := by
  cases fields with
  | none => exact formed
  | some selection => exact Selection.wellFormed_project (wellFormed.of_reads reads) ⟨_, rfl⟩ formed

/-- An entry of a catalogue in which an id was bound anew. -/
def rebound (id : String) (next : Fields Json) (entry : String × Fields Json) :
    String × Fields Json :=
  if entry.1 = id then (id, next) else entry

theorem fst_rebound (id : String) (next : Fields Json) (entry : String × Fields Json) :
    (rebound id next entry).1 = entry.1 := by
  unfold rebound
  split
  · rename_i same
    exact same.symm
  · rfl

section Rebound

variable {next : Fields Json} (bound : catalogue.lookUp? id = some members)
include bound

/-- Only the entry with the id is changed. -/
theorem rebound_cases (next : Fields Json) {entry : String × Fields Json}
    (member : entry ∈ catalogue.entries) :
    (entry = (id, members) ∧ rebound id next entry = (id, next)) ∨
      (entry.1 ≠ id ∧ rebound id next entry = entry) := by
  rcases entry with ⟨other, found⟩
  by_cases same : other = id
  · subst same
    rw [Catalogue.mem_entries_iff, bound, Option.some.injEq] at member
    exact .inl ⟨by rw [member], if_pos rfl⟩
  · exact .inr ⟨same, if_neg same⟩

/-- An id that is bound is bound anew in its place. -/
theorem entries_bind :
    (catalogue.bind id next).entries = catalogue.entries.map (rebound id next) := by
  apply eq_of_ascending_of_mem_iff (catalogue.bind id next).ascending
  · rw [List.pairwise_map]
    simpa only [fst_rebound] using catalogue.ascending
  · rintro ⟨other, found⟩
    rw [Catalogue.mem_entries_iff, Catalogue.lookUp?_bind, List.mem_map]
    constructor
    · intro anew
      by_cases same : other = id
      · rw [if_pos same, Option.some.injEq] at anew
        exact ⟨(id, members), Catalogue.mem_entries_iff.mpr bound, by simp [rebound, same, anew]⟩
      · rw [if_neg same, ← Catalogue.mem_entries_iff] at anew
        exact ⟨(other, found), anew, if_neg same⟩
    · rintro ⟨entry, member, anew⟩
      rcases rebound_cases bound next member with ⟨rfl, changed⟩ | ⟨apart, unchanged⟩
      · rw [changed, Prod.mk.injEq] at anew
        rw [if_pos anew.1.symm, anew.2]
      · rw [unchanged] at anew
        subst anew
        rw [if_neg apart, ← Catalogue.mem_entries_iff]
        exact member

section Filters

variable (admits : ∀ filter : Filter, filter.admits (Catalogue.document (id, next)) =
  filter.admits (Catalogue.document (id, members)))
include admits

/-- Filters that see the same in a document that was bound anew keep the same entries. -/
theorem filter_bind (filters : List Filter) :
    ((catalogue.bind id next).entries.filter fun entry =>
        filters.all (·.admits (Catalogue.document entry))) =
      (catalogue.entries.filter fun entry =>
        filters.all (·.admits (Catalogue.document entry))).map (rebound id next) := by
  rw [entries_bind bound, List.filter_map]
  congr 1
  apply List.filter_congr
  intro entry member
  rw [Function.comp_apply]
  rcases rebound_cases bound next member with ⟨rfl, changed⟩ | ⟨_, unchanged⟩
  · rw [changed]
    simp only [admits]
  · rw [unchanged]

/-- Whoever asks for no documents sees no difference. -/
theorem find_bind_of_ids {query : Query} (all : query.id = none)
    (ids : query.includeDocuments = false) :
    Register.find collection (catalogue.bind id next) query =
      Register.find collection catalogue query := by
  have answers (fields : Option Selection) :
      Register.find.answer collection (catalogue.bind id next) query fields =
        Register.find.answer collection catalogue query fields := by
    simp only [Register.find.answer, all, ids, filter_bind bound admits, List.map_map,
      Bool.false_eq_true, if_false]
    congr 2
    exact List.map_congr_left fun entry _ => fst_rebound id next entry
  simp only [Register.find, answers]

/-- Whoever asks for documents sees equal ones, if the document with the id, narrowed to the
fields, is equal. -/
theorem sameAnswer_find_bind
    (formed : ∀ entry ∈ catalogue.entries, (Catalogue.document entry).WellFormed)
    {query : Query} (wellFormed : query.WellFormed)
    (same : ∀ fields, query.Reads fields → (partOf fields (Catalogue.document (id, members))).same
      (partOf fields (Catalogue.document (id, next))) = true) :
    SameAnswer (Register.find collection catalogue query)
      (Register.find collection (catalogue.bind id next) query) := by
  rcases query.reads_or_malformed with ⟨fields, reads⟩ | ⟨refusal, malformed⟩
  · have each : ∀ entry ∈ catalogue.entries, (partOf fields (Catalogue.document entry)).same
        (partOf fields (Catalogue.document (rebound id next entry))) = true := by
      intro entry member
      rcases rebound_cases bound next member with ⟨rfl, changed⟩ | ⟨_, unchanged⟩
      · rw [changed]
        exact same fields reads
      · rw [unchanged]
        exact Json.same_self (wellFormed_partOf wellFormed reads (formed entry member))
    rw [find_of_reads reads, find_of_reads reads, Register.find.answer, Register.find.answer]
    cases asked : query.id with
    | some other =>
        dsimp only
        rw [Catalogue.lookUp?_bind]
        by_cases own : other = id
        · rw [if_pos own, own, bound]
          exact same fields reads
        · rw [if_neg own]
          cases found : catalogue.lookUp? other with
          | none => exact rfl
          | some others =>
              have member := Catalogue.mem_entries_iff.mpr found
              exact Json.same_self (wellFormed_partOf wellFormed reads (formed _ member))
    | none =>
        dsimp only
        rw [filter_bind bound admits, List.map_map, List.map_map]
        cases query.includeDocuments with
        | true =>
            change List.Forall₂ _ _ _
            rw [List.forall₂_map_left_iff, List.forall₂_map_right_iff, List.forall₂_same]
            exact fun entry member => each entry (List.mem_filter.mp member).1
        | false => exact List.map_congr_left fun entry _ => (fst_rebound id next entry).symm
  · simp only [Register.find, malformed]
    exact rfl

end Filters

end Rebound

end Collection

end Folio
