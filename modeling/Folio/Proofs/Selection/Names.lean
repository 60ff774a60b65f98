import Folio.Proofs.Fields
import Folio.Proofs.Text.Blank
import Folio.Selection.Name

/-!
# Names and well-formed selections

A name is a list of characters that is not empty, already trimmed and without
punctuation.  The tokens of every text are names or punctuation, and adding an entry
with such a name keeps a selection well formed.
-/

namespace Folio.Selection

open Text

/-- What it takes to be a name. -/
theorem isName_iff {name : String} :
    IsName name ↔ name.toList ≠ [] ∧ trim name.toList = name.toList ∧
      ∀ c ∈ name.toList, Token.ofChar? c = none := by
  simp only [IsName, nameFault?]
  split
  · rename_i empty
    simp [empty]
  · rename_i nonempty
    split
    · rename_i padded
      simp [padded]
    · rename_i trimmed
      rw [not_not] at trimmed
      simp [nonempty, trimmed, Token.isPunctuation]

/-- Names are what the check accepts. -/
theorem checkName_eq_ok_iff {name : String} : checkName name = .ok () ↔ IsName name := by
  unfold checkName IsName
  cases nameFault? name <;> simp

/-- What is left of a run without punctuation is a name. -/
theorem isName_of_mem_nameIn {start : Nat} {run : List Char} {located : Located} {text : String}
    (plain : ∀ c ∈ run, Token.ofChar? c = none) (member : located ∈ nameIn start run)
    (isText : located.token = .name text) : IsName text := by
  unfold nameIn at member
  split at member
  · simp at member
  · rename_i c rest trimmed
    rw [List.mem_singleton] at member
    rw [member] at isText
    cases isText
    rw [isName_iff, String.toList_ofList]
    refine ⟨List.cons_ne_nil c rest, ?_, ?_⟩
    · rw [← trimmed, trim_trim]
    · intro other inside
      rw [← trimmed] at inside
      exact plain other (mem_of_mem_trim inside)

/-- Every text among the tokens of a text is a name. -/
theorem isName_of_mem_tokensFrom {start : Nat} {run chars : List Char} {located : Located}
    {text : String} (plain : ∀ c ∈ run, Token.ofChar? c = none)
    (member : located ∈ tokensFrom start run chars) (isText : located.token = .name text) :
    IsName text := by
  have reversed {run : List Char} (plain : ∀ c ∈ run, Token.ofChar? c = none) :
      ∀ c ∈ run.reverse, Token.ofChar? c = none :=
    fun c inside => plain c (List.mem_reverse.mp inside)
  induction chars generalizing start run with
  | nil => exact isName_of_mem_nameIn (reversed plain) member isText
  | cons c rest ih =>
      rw [tokensFrom] at member
      cases punctuation : Token.ofChar? c with
      | none =>
          simp only [punctuation] at member
          refine ih ?_ member
          intro other inside
          rcases List.mem_cons.mp inside with rfl | earlier
          · exact punctuation
          · exact plain other earlier
      | some token =>
          simp only [punctuation, List.mem_append, List.mem_cons] at member
          rcases member with before | rfl | behind
          · exact isName_of_mem_nameIn (reversed plain) before isText
          · -- No punctuation is the token of a name.
            have apart : Token.ofChar? c ≠ some (.name text) := by
              unfold Token.ofChar?
              split <;> simp
            exact absurd (punctuation.trans (congrArg some isText)) apart
          · exact ih (by simp) behind

/-! ## Adding entries -/

/-- The entries of a selection are well formed one by one. -/
theorem entriesWellFormed_iff {entries : List (String × Field)} :
    EntriesWellFormed entries ↔
      ∀ entry ∈ entries, IsName entry.1 ∧ FieldWellFormed entry.2 := by
  induction entries with
  | nil => simp [EntriesWellFormed]
  | cons entry rest ih =>
      rw [EntriesWellFormed, ih, List.forall_mem_cons, and_assoc]

theorem wellFormed_nil : WellFormed [] := by
  simp [WellFormed, EntriesWellFormed]

/-- Binding a name keeps a selection well formed. -/
theorem WellFormed.put {selection : Selection} (wellFormed : WellFormed selection) {name : String}
    (isName : IsName name) {field : Field} (inner : FieldWellFormed field) :
    WellFormed (Fields.put selection name field) := by
  rcases wellFormed with ⟨distinct, entries⟩
  refine ⟨Fields.nodup_names_put distinct name field, ?_⟩
  rw [entriesWellFormed_iff] at entries ⊢
  intro entry member
  rcases Fields.mem_of_mem_put member with rfl | old
  · exact ⟨isName, inner⟩
  · exact entries entry old

/-- Adding an entry binds its name, if it is one. -/
theorem insert_eq_ok_iff {selection next : Selection} {name : String} {field : Field} :
    insert selection name field = .ok next ↔
      IsName name ∧ next = Fields.put selection name field := by
  unfold insert checkName IsName
  cases nameFault? name with
  | none => simp [Except.map, eq_comm]
  | some fault => simp [Except.map]

end Folio.Selection
