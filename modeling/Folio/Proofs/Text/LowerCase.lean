import Folio.Text.Slug
import Mathlib.Data.List.Chain

/-!
# Letters and their lower cases

The lower case of a letter or number is one letter or number that is its own lower case,
unless it is the dotted capital I.  This is read off the tables: they are turned into sets
of code points, which are written as numbers whose binary digits mark the members, so that
two sets are compared by one operation.
-/

namespace Folio.Text

/-! ## Sets of code points -/

/-- The number whose binary digits mark some code points. -/
def marks : List Nat → Nat
  | [] => 0
  | point :: rest => 1 <<< point ||| marks rest

/-- The number whose binary digits mark the code points of spans. -/
def spanMarks : List (Nat × Nat) → Nat
  | [] => 0
  | (first, last) :: rest => (1 <<< (last + 1 - first) - 1) <<< first ||| spanMarks rest

variable {point : Nat}

theorem testBit_marks {points : List Nat} :
    (marks points).testBit point = true ↔ point ∈ points := by
  induction points with
  | nil => simp [marks]
  | cons first rest ih =>
      rw [marks, Nat.testBit_or, Bool.or_eq_true, ih, List.mem_cons, Nat.one_shiftLeft,
        Nat.testBit_two_pow, decide_eq_true_eq, eq_comm]

theorem testBit_spanMarks {spans : List (Nat × Nat)} :
    (spanMarks spans).testBit point = true ↔
      ∃ span ∈ spans, span.1 ≤ point ∧ point ≤ span.2 := by
  induction spans with
  | nil => simp [spanMarks]
  | cons span rest ih =>
      rcases span with ⟨first, last⟩
      have here : ((1 <<< (last + 1 - first) - 1) <<< first).testBit point = true ↔
          first ≤ point ∧ point ≤ last := by
        rw [Nat.testBit_shiftLeft, Nat.one_shiftLeft, Nat.testBit_two_pow_sub_one]
        simp only [Bool.and_eq_true, decide_eq_true_eq]
        omega
      rw [spanMarks, Nat.testBit_or, Bool.or_eq_true, ih, here]
      simp

/-- What lies in one of some spans that ascend lies within them. -/
theorem within_of_mem {spans : List (Nat × Nat)}
    (ascending : spans.Pairwise fun span later => span.1 ≤ later.1) {span : Nat × Nat}
    (member : span ∈ spans) (above : span.1 ≤ point) (below : point ≤ span.2) :
    within point spans = true := by
  induction spans with
  | nil => contradiction
  | cons first rest ih =>
      rw [List.pairwise_cons] at ascending
      have reached : first.1 ≤ point := by
        rcases List.mem_cons.mp member with rfl | later
        · exact above
        · exact Nat.le_trans (ascending.1 span later) above
      rw [within, if_neg (Nat.not_lt.mpr reached)]
      split
      · rfl
      · rename_i beyond
        rcases List.mem_cons.mp member with rfl | later
        · exact absurd below beyond
        · exact ih ascending.2 later

/-! ## The table of lower cases -/

namespace LowerCase

/-- The code points of a span, each with its lower case. -/
def pairsOf : Nat × Nat × Nat × Nat → List (Nat × Nat)
  | (first, last, step, target) =>
      (List.range ((last - first) / step + 1)).map fun index =>
        (first + step * index, target + step * index)

/-- The code points that a table lists, each with its lower case. -/
def pairs (table : List (Nat × Nat × Nat × Nat)) : List (Nat × Nat) := table.flatMap pairsOf

theorem mem_pairsOf {first last step target : Nat} (above : first ≤ point) (below : point ≤ last)
    (inStep : (point - first) % step = 0) :
    (point, target + (point - first)) ∈ pairsOf (first, last, step, target) := by
  have whole : step * ((point - first) / step) = point - first :=
    Nat.mul_div_cancel' (Nat.dvd_of_mod_eq_zero inStep)
  have within : (point - first) / step ≤ (last - first) / step :=
    Nat.div_le_div_right (Nat.sub_le_sub_right below first)
  rw [pairsOf, List.mem_map]
  refine ⟨(point - first) / step, List.mem_range.mpr (Nat.lt_succ_of_le within), ?_⟩
  rw [whole, Nat.add_sub_cancel' above]

/-- What is looked up is listed, or it is its own lower case. -/
theorem find_cases (point : Nat) (table : List (Nat × Nat × Nat × Nat)) :
    find point table = point ∨ (point, find point table) ∈ pairs table := by
  induction table with
  | nil => exact .inl rfl
  | cons span rest ih =>
      rcases span with ⟨first, last, step, target⟩
      rw [find, pairs, List.flatMap_cons, List.mem_append]
      split
      · exact .inl rfl
      · rename_i reached
        split
        · rename_i inside
          exact .inr (.inl (mem_pairsOf (Nat.not_lt.mp reached) inside.1 inside.2))
        · exact ih.imp_right .inr

/-- The code points that have a lower case of their own. -/
def sources : List Nat := (pairs spans).map Prod.fst

/-- The code points that are lower cases of others. -/
def targets : List Nat := (pairs spans).map Prod.snd

theorem marks_sources_and_targets : marks sources &&& marks targets = 0 := by
  decide +kernel

theorem marks_targets_and_alphanumeric :
    marks targets &&& spanMarks Alphanumeric.spans = marks targets := by
  decide +kernel

theorem isChain_alphanumeric : (Alphanumeric.spans.map Prod.fst).IsChain (· ≤ ·) := by
  decide +kernel

theorem isValidChar_of_mem_targets :
    ∀ point ∈ targets, point.isValidChar ∧ point ≠ dottedCapitalI.toNat := by
  decide +kernel

theorem find_of_mem_targets (member : point ∈ targets) : find point spans = point := by
  rcases find_cases point spans with same | listed
  · exact same
  · have source : point ∈ sources := List.mem_map_of_mem (f := Prod.fst) listed
    have both : (marks sources &&& marks targets).testBit point = true := by
      rw [Nat.testBit_and, testBit_marks.mpr source, testBit_marks.mpr member]
      rfl
    rw [marks_sources_and_targets, Nat.zero_testBit] at both
    contradiction

theorem within_of_mem_targets (member : point ∈ targets) :
    within point Alphanumeric.spans = true := by
  have marked := testBit_marks.mpr member
  rw [← marks_targets_and_alphanumeric, Nat.testBit_and, Bool.and_eq_true] at marked
  rcases testBit_spanMarks.mp marked.2 with ⟨span, inside, above, below⟩
  exact within_of_mem (List.pairwise_map.mp isChain_alphanumeric.pairwise) inside above below

end LowerCase

/-! ## Characters -/

/-- Whether a character is a letter or a number that is its own lower case. -/
def Settled (c : Char) : Prop := isAlphanumeric c = true ∧ lowerCase c = [c]

open LowerCase

theorem settled_of_mem_targets (member : point ∈ targets) : Settled (Char.ofNat point) := by
  rcases isValidChar_of_mem_targets point member with ⟨valid, apart⟩
  have whole : (Char.ofNat point).toNat = point := by
    rw [Char.ofNat, dif_pos valid]
    rfl
  have notDotted : Char.ofNat point ≠ dottedCapitalI := by
    intro same
    rw [same] at whole
    exact apart whole.symm
  constructor
  · rw [isAlphanumeric, whole]
    exact within_of_mem_targets member
  · rw [lowerCase, if_neg notDotted, whole, find_of_mem_targets member]

/-- The lower case of every letter or number but the dotted capital I is a letter or number
that is its own lower case. -/
theorem exists_settled {c : Char} (alphanumeric : isAlphanumeric c = true)
    (notDotted : c ≠ dottedCapitalI) : ∃ d, lowerCase c = [d] ∧ Settled d := by
  have lower : lowerCase c = [Char.ofNat (find c.toNat spans)] := by
    rw [lowerCase, if_neg notDotted]
  rcases find_cases c.toNat spans with same | listed
  · rw [same, Char.ofNat_toNat] at lower
    exact ⟨c, lower, alphanumeric, lower⟩
  · exact ⟨_, lower, settled_of_mem_targets (List.mem_map_of_mem (f := Prod.snd) listed)⟩

end Folio.Text
