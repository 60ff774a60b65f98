import Folio.Proofs.Text.LowerCase
import Folio.Proofs.Text.Pieces
import Folio.Text.Slug

/-!
# Which slugs are canonical

The pass over a text writes its words, in lower case and with a hyphen in front of each but
the first.  Such a slug consists of runs of letters and numbers with single hyphens between them, and it is
its own slug, exactly when its text has no dotted capital I.  The lower case of that letter
ends with a combining dot, which is neither a letter nor a number, so that a slug of the
slug leaves it out.
-/

namespace Folio.Text

variable {chars : List Char} {text : String}

/-- Whether characters are runs of letters and numbers, none of them empty, with a single
hyphen between two of them. -/
def Canonical (chars : List Char) : Prop :=
  ∃ runs : List (List Char), (∀ run ∈ runs, run ≠ [] ∧ ∀ c ∈ run, isAlphanumeric c = true) ∧
    chars = ['-'].intercalate runs

/-- The combining dot above. -/
def combiningDot : Char := '\u0307'

theorem Canonical.isAlphanumeric_or_eq (canonical : Canonical chars) {c : Char}
    (member : c ∈ chars) : isAlphanumeric c = true ∨ c = '-' := by
  rcases canonical with ⟨runs, proper, rfl⟩
  rcases eq_or_exists_of_mem_intercalate member with hyphen | ⟨run, inside, member⟩
  · exact .inr hyphen
  · exact .inl ((proper run inside).2 c member)

theorem Canonical.combiningDot_not_mem (canonical : Canonical chars) : combiningDot ∉ chars := by
  intro member
  have apart : ¬(isAlphanumeric combiningDot = true ∨ combiningDot = '-') := by decide +kernel
  exact apart (canonical.isAlphanumeric_or_eq member)

/-! ## Words -/

/-- The runs of letters and numbers of a text. -/
def words (chars : List Char) : List (List Char) :=
  (chars.splitOnP fun c => !isAlphanumeric c).filter fun run => !run.isEmpty

theorem flatten_words (chars : List Char) :
    (words chars).flatten = chars.filter isAlphanumeric := by
  rw [words, List.flatten_filter_not_isEmpty, flatten_splitOnP]
  simp only [Bool.not_not]

theorem ne_nil_of_mem_words {word : List Char} (inside : word ∈ words chars) : word ≠ [] := by
  rintro rfl
  simp [words] at inside

theorem mem_of_mem_words {word : List Char} (inside : word ∈ words chars) {c : Char}
    (member : c ∈ word) : c ∈ chars ∧ isAlphanumeric c = true := by
  have kept : c ∈ (words chars).flatten := List.mem_flatten.mpr ⟨word, inside, member⟩
  rwa [flatten_words, List.mem_filter] at kept

theorem exists_mem_words {c : Char} (member : c ∈ chars) (alphanumeric : isAlphanumeric c = true) :
    ∃ word ∈ words chars, c ∈ word := by
  have kept : c ∈ (words chars).flatten := by
    rw [flatten_words, List.mem_filter]
    exact ⟨member, alphanumeric⟩
  exact List.mem_flatten.mp kept

/-- The words of what is canonical are its runs. -/
theorem words_intercalate {runs : List (List Char)}
    (proper : ∀ run ∈ runs, run ≠ [] ∧ ∀ c ∈ run, isAlphanumeric c = true) :
    words (['-'].intercalate runs) = runs := by
  have separates : (!isAlphanumeric '-') = true := by decide +kernel
  induction runs with
  | nil => rfl
  | cons run rest ih =>
      rcases List.forall_mem_cons.mp proper with ⟨⟨nonempty, alphanumeric⟩, properRest⟩
      have uncut : ∀ c ∈ run, (!isAlphanumeric c) = false := by
        intro c member
        rw [alphanumeric c member]
        rfl
      have later := ih properRest
      rw [words] at later ⊢
      cases rest with
      | nil =>
          rw [List.intercalate_singleton, List.splitOnP_eq_singleton uncut]
          simp [nonempty]
      | cons next rest =>
          rw [List.intercalate_cons_cons, List.append_assoc, List.singleton_append,
            List.splitOnP_append_cons_of_forall_mem uncut '-' separates, List.filter_cons, later]
          simp [nonempty]

/-! ## Lower cases of words -/

/-- The runs that a slug joins: the words of its text in lower case. -/
def slugRuns (text : String) : List (List Char) :=
  (words text.toList).map fun word => word.flatMap lowerCase

theorem lowerCase_ne_nil (c : Char) : lowerCase c ≠ [] := by
  unfold lowerCase
  split <;> exact List.cons_ne_nil _ _

/-! ## One pass -/

namespace SlugDraft

/-- Pieces of a text in lower case, each with a hyphen in front; empty pieces are left out. -/
def hyphenated (pieces : List (List Char)) : List Char :=
  (pieces.filter fun run => !run.isEmpty).flatMap fun run => '-' :: run.flatMap lowerCase

/-- Behind a hyphen all words are written with a hyphen, the one that is there being the
first; behind a word the rest of it is written, and then all others. -/
theorem finish_foldl (chars : List Char) (written first : List Char) (rest : List (List Char))
    (pieces : chars.splitOnP (fun c => !isAlphanumeric c) = first :: rest) :
    (chars.foldl add ⟨written ++ ['-'], true⟩).finish = written ++ hyphenated (first :: rest) ∧
      (written ≠ [] → (chars.foldl add ⟨written, false⟩).finish =
        written ++ first.flatMap lowerCase ++ hyphenated rest) := by
  -- The draft is in one of two states behind every character, and each leads to the other.
  induction chars generalizing written first rest with
  | nil =>
      cases pieces
      simp [finish, hyphenated]
  | cons c chars ih =>
      rcases List.exists_cons_of_ne_nil (List.splitOnP_ne_nil (fun c => !isAlphanumeric c) chars)
        with ⟨next, others, split⟩
      rw [List.splitOnP_cons_eq_if_modifyHead, split] at pieces
      have nonempty : written ++ lowerCase c ≠ [] :=
        List.append_ne_nil_of_right_ne_nil _ (lowerCase_ne_nil c)
      by_cases letter : isAlphanumeric c
      · simp only [letter, Bool.not_true, Bool.false_eq_true, if_false, List.modifyHead_cons,
          List.cons.injEq] at pieces
        rcases pieces with ⟨rfl, rfl⟩
        have behind := (ih (written ++ '-' :: lowerCase c) next others split).2 (by simp)
        have within := (ih (written ++ lowerCase c) next others split).2 nonempty
        constructor
        · simp [add, letter, behind, hyphenated]
        · simp [add, letter, within]
      · simp only [letter, Bool.not_false, if_true, List.cons.injEq] at pieces
        rcases pieces with ⟨rfl, rfl⟩
        have behind := (ih written next others split).1
        constructor
        · simpa [add, letter, hyphenated] using behind
        · intro started
          simpa [add, letter, started] using behind

/-- With nothing written the first word is written without a hyphen. -/
theorem finish_foldl_nil (chars : List Char) :
    (chars.foldl add {}).finish =
      ['-'].intercalate ((words chars).map fun word => word.flatMap lowerCase) := by
  induction chars with
  | nil => rfl
  | cons c chars ih =>
      rcases List.exists_cons_of_ne_nil (List.splitOnP_ne_nil (fun c => !isAlphanumeric c) chars)
        with ⟨next, others, split⟩
      by_cases letter : isAlphanumeric c
      · have within := (finish_foldl chars (lowerCase c) next others split).2 (lowerCase_ne_nil c)
        have cut : words (c :: chars) = (c :: next) :: others.filter fun run => !run.isEmpty := by
          simp [words, List.splitOnP_cons_eq_if_modifyHead, split, letter]
        rw [cut, List.map_cons, intercalate_cons, List.flatMap_map]
        simpa [add, letter, hyphenated] using within
      · have cut : words (c :: chars) = words chars := by
          simp [words, List.splitOnP_cons_eq_if_modifyHead, letter]
        rw [cut, ← ih]
        simp [add, letter]

end SlugDraft

/-- The slug of a text is made of its words in lower case, joined by hyphens. -/
theorem toList_slug (text : String) : (slug text).toList = ['-'].intercalate (slugRuns text) := by
  rw [slug, String.toList_ofList, SlugDraft.finish_foldl_nil]
  rfl

theorem flatMap_lowerCase {run : List Char} (settled : ∀ c ∈ run, Settled c) :
    run.flatMap lowerCase = run := by
  induction run with
  | nil => rfl
  | cons c rest ih =>
      rcases List.forall_mem_cons.mp settled with ⟨first, later⟩
      rw [List.flatMap_cons, first.2, ih later]
      rfl

theorem not_settled_dottedCapitalI : ¬Settled dottedCapitalI := by
  rintro ⟨-, lower⟩
  rw [lowerCase, if_pos rfl] at lower
  simp at lower

theorem exists_of_mem_slugRuns {run : List Char} (inside : run ∈ slugRuns text) {c : Char}
    (member : c ∈ run) :
    ∃ b ∈ text.toList, isAlphanumeric b = true ∧ c ∈ lowerCase b := by
  rcases List.mem_map.mp inside with ⟨word, isWord, rfl⟩
  rcases List.mem_flatMap.mp member with ⟨b, letter, lower⟩
  rcases mem_of_mem_words isWord letter with ⟨isLetter, alphanumeric⟩
  exact ⟨b, isLetter, alphanumeric, lower⟩

/-- No slug has a dotted capital I. -/
theorem dottedCapitalI_not_mem_slug (text : String) : dottedCapitalI ∉ (slug text).toList := by
  intro member
  rw [toList_slug] at member
  rcases eq_or_exists_of_mem_intercalate member with hyphen | ⟨run, inside, member⟩
  · contradiction
  · rcases exists_of_mem_slugRuns inside member with ⟨b, -, alphanumeric, lower⟩
    by_cases dotted : b = dottedCapitalI
    · rw [dotted, lowerCase, if_pos rfl] at lower
      revert lower
      decide
    · rcases exists_settled alphanumeric dotted with ⟨d, only, settled⟩
      rw [only, List.mem_singleton] at lower
      exact not_settled_dottedCapitalI (lower ▸ settled)

theorem combiningDot_mem_slug (dotted : dottedCapitalI ∈ text.toList) :
    combiningDot ∈ (slug text).toList := by
  have alphanumeric : isAlphanumeric dottedCapitalI = true := by decide +kernel
  have lower : combiningDot ∈ lowerCase dottedCapitalI := by
    rw [lowerCase, if_pos rfl]
    decide
  rcases exists_mem_words dotted alphanumeric with ⟨word, inside, member⟩
  rw [toList_slug]
  exact mem_intercalate_of_mem (List.mem_map_of_mem inside)
    (List.mem_flatMap.mpr ⟨dottedCapitalI, member, lower⟩)

/-! ## Texts without a dotted capital I -/

section Plain

variable (plain : dottedCapitalI ∉ text.toList)
include plain

theorem exists_settled_of_plain {b : Char} (letter : b ∈ text.toList)
    (alphanumeric : isAlphanumeric b = true) : ∃ d, lowerCase b = [d] ∧ Settled d :=
  exists_settled alphanumeric fun dotted => plain (dotted ▸ letter)

/-- The runs of the slug are not empty, and are their own lower cases. -/
theorem settled_of_mem_slugRuns {run : List Char} (inside : run ∈ slugRuns text) :
    run ≠ [] ∧ ∀ c ∈ run, Settled c := by
  constructor
  · rcases List.mem_map.mp inside with ⟨word, isWord, rfl⟩
    rcases List.exists_mem_of_ne_nil word (ne_nil_of_mem_words isWord) with ⟨b, member⟩
    rcases mem_of_mem_words isWord member with ⟨letter, alphanumeric⟩
    rcases exists_settled_of_plain plain letter alphanumeric with ⟨d, only, -⟩
    apply List.ne_nil_of_mem
    exact List.mem_flatMap.mpr ⟨b, member, only ▸ List.mem_singleton_self d⟩
  · intro c member
    rcases exists_of_mem_slugRuns inside member with ⟨b, letter, alphanumeric, lower⟩
    rcases exists_settled_of_plain plain letter alphanumeric with ⟨d, only, settled⟩
    rw [only, List.mem_singleton] at lower
    exact lower ▸ settled

theorem alphanumeric_of_mem_slugRuns {run : List Char} (inside : run ∈ slugRuns text) :
    run ≠ [] ∧ ∀ c ∈ run, isAlphanumeric c = true := by
  rcases settled_of_mem_slugRuns plain inside with ⟨nonempty, settled⟩
  exact ⟨nonempty, fun c member => (settled c member).1⟩

theorem canonical_slug : Canonical (slug text).toList :=
  ⟨slugRuns text, fun _ inside => alphanumeric_of_mem_slugRuns plain inside, toList_slug text⟩

theorem slug_slug : slug (slug text) = slug text := by
  have proper : ∀ run ∈ slugRuns text, run ≠ [] ∧ ∀ c ∈ run, isAlphanumeric c = true :=
    fun _ inside => alphanumeric_of_mem_slugRuns plain inside
  have kept : (slugRuns text).map (fun run => run.flatMap lowerCase) = slugRuns text := by
    conv_rhs => rw [← List.map_id (slugRuns text)]
    apply List.map_congr_left
    intro run inside
    exact flatMap_lowerCase (settled_of_mem_slugRuns plain inside).2
  have runs : slugRuns (slug text) = slugRuns text := by
    rw [slugRuns, toList_slug, words_intercalate proper, kept]
  rw [← String.toList_inj, toList_slug, toList_slug, runs]

end Plain

/-! ## All texts -/

/-- A slug is canonical, and it is its own slug, exactly when the text has no dotted capital I;
the slug of a slug always is. -/
theorem slug_canonical_iff (text : String) :
    (Canonical (slug text).toList ↔ dottedCapitalI ∉ text.toList) ∧
    (slug (slug text) = slug text ↔ dottedCapitalI ∉ text.toList) ∧
    Canonical (slug (slug text)).toList ∧ slug (slug (slug text)) = slug (slug text) := by
  have again := dottedCapitalI_not_mem_slug text
  have twice := canonical_slug again
  refine ⟨⟨?_, canonical_slug⟩, ⟨?_, slug_slug⟩, twice, slug_slug again⟩
  · intro canonical dotted
    exact canonical.combiningDot_not_mem (combiningDot_mem_slug dotted)
  · intro fixed dotted
    apply twice.combiningDot_not_mem
    rw [fixed]
    exact combiningDot_mem_slug dotted

/-- The dotted capital I alone has a slug that is not canonical, and another slug of that. -/
theorem slug_of_dottedCapitalI :
    ¬Canonical (slug "\u0130").toList ∧ slug "\u0130" = "i\u0307" ∧ slug "i\u0307" = "i" := by
  have first : slug "\u0130" = "i\u0307" := by decide +kernel
  have second : slug "i\u0307" = "i" := by decide +kernel
  refine ⟨?_, first, second⟩
  intro canonical
  apply canonical.combiningDot_not_mem
  rw [first]
  decide

end Folio.Text
