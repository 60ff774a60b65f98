import Folio.Text.Blank
import Mathlib.Data.List.DropRight
import Mathlib.Data.List.TakeWhile

/-!
# Trimming

A text is trimmed when it neither starts nor ends with a blank.  Trimming takes
nothing else away, and a second time it takes nothing away.  Blanks that are put at
the ends of a text are trimmed again, and of a blank text nothing is left.
-/

namespace Folio.Text

variable {chars : List Char}

theorem trimEnd_eq_rdropWhile (chars : List Char) : trimEnd chars = chars.rdropWhile isBlank :=
  rfl

theorem trimEnd_isPrefix (chars : List Char) : trimEnd chars <+: chars :=
  List.rdropWhile_prefix isBlank chars

theorem mem_of_mem_trim {c : Char} (member : c ∈ trim chars) : c ∈ chars :=
  (List.dropWhile_suffix isBlank).subset ((trimEnd_isPrefix _).subset member)

/-- Trimming the end leaves a front without blanks alone. -/
theorem trimStart_trimEnd_trimStart (chars : List Char) :
    trimStart (trimEnd (trimStart chars)) = trimEnd (trimStart chars) := by
  cases kept : trimEnd (trimStart chars) with
  | nil => rfl
  | cons c rest =>
      rcases trimEnd_isPrefix (trimStart chars) with ⟨blanks, whole⟩
      have noBlank := head?_trimStart_not_blank chars
      rw [← whole, kept] at noBlank
      have solid : isBlank c = false := by simpa using noBlank
      rw [trimStart, List.dropWhile_cons, solid]
      rfl

@[simp]
theorem trim_trim (chars : List Char) : trim (trim chars) = trim chars := by
  rw [trim, trim, trimStart_trimEnd_trimStart, trimEnd_eq_rdropWhile,
    trimEnd_eq_rdropWhile, List.rdropWhile_idempotent]

/-! ## Blank texts -/

/-- Whether there is nothing but blanks. -/
def Blank (chars : List Char) : Prop := ∀ c ∈ chars, isBlank c = true

theorem blank_nil : Blank [] := by
  simp [Blank]

/-- Only a blank text has nothing left when it is trimmed. -/
theorem trim_eq_nil_iff : trim chars = [] ↔ Blank chars := by
  rw [trim, trimEnd_eq_rdropWhile, List.rdropWhile_eq_nil_iff]
  constructor
  · intro blank c member
    rw [← List.takeWhile_append_dropWhile (p := isBlank) (l := chars), List.mem_append] at member
    rcases member with front | back
    · exact List.mem_takeWhile_imp front
    · exact blank c back
  · intro blank c member
    exact blank c ((List.dropWhile_suffix isBlank).subset member)

theorem blank_takeWhile (chars : List Char) : Blank (chars.takeWhile isBlank) :=
  fun _ member => List.mem_takeWhile_imp member

theorem exists_eq_append_trim (chars : List Char) :
    ∃ behind, Blank behind ∧ chars = chars.takeWhile isBlank ++ trim chars ++ behind := by
  refine ⟨(trimStart chars).rtakeWhile isBlank, fun c member => List.mem_rtakeWhile_imp member, ?_⟩
  rw [trim, trimEnd_eq_rdropWhile, List.append_assoc, List.rdropWhile_append_rtakeWhile, trimStart,
    List.takeWhile_append_dropWhile]

theorem trim_append_of_blank {blanks : List Char} (blank : Blank blanks) (run : List Char) :
    trim (blanks ++ run) = trim run := by
  rw [trim, trim, trimStart, trimStart, List.dropWhile_append_of_pos blank]

/-- Blanks behind are trimmed. -/
theorem trim_append_blank {blanks : List Char} (blank : Blank blanks) (run : List Char) :
    trim (run ++ blanks) = trim run := by
  have ending (front : List Char) : trimEnd (front ++ blanks) = trimEnd front := by
    have behind : ∀ c ∈ blanks.reverse, isBlank c = true :=
      fun c member => blank c (List.mem_reverse.mp member)
    rw [trimEnd, trimEnd, List.reverse_append, List.dropWhile_append_of_pos behind]
  rw [trim, trim, trimStart, trimStart, List.dropWhile_append]
  split
  · rename_i empty
    have nothing : blanks.dropWhile isBlank = [] := List.dropWhile_eq_nil_iff.mpr blank
    rw [nothing, List.isEmpty_iff.mp empty]
  · exact ending _

end Folio.Text
