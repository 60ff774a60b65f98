import Folio.Proofs.Decimal.Digits
import Folio.Proofs.Digest.Stamp
import Folio.Proofs.Store.Entries
import Folio.Proofs.Text.Front

/-!
# Sequence numbers of revisions

The sequence number of a document is kept nowhere but in the text of its revision.
It is read back from there as long as it is within the range of sequence numbers,
and two revisions with different numbers are different.
-/

namespace Folio

open Text

theorem cutAt?_revisionText (sequence : Nat) (stamp : String) :
    cutAt? '-' (revisionText sequence stamp).toList =
      some (Nat.toDigits 10 sequence, stamp.toList) := by
  rw [revisionText, String.toList_ofList]
  exact cutAt?_append (Decimal.not_mem_toDigits (by decide) sequence) _

theorem sequence_eq_of_revisionText_eq {first second : Nat} {stamp other : String}
    (same : revisionText first stamp = revisionText second other) : first = second := by
  have cut := cutAt?_revisionText first stamp
  rw [same, cutAt?_revisionText, Option.some.injEq, Prod.mk.injEq] at cut
  exact (Decimal.toDigits_injective cut.1).symm

theorem sequenceOf?_toDigits {sequence : Nat} (bound : sequence ≤ maxSequence) :
    sequenceOf? (Nat.toDigits 10 sequence) = some sequence := by
  have noSign : (Nat.toDigits 10 sequence).head? ≠ some '+' := by
    intro sign
    exact Decimal.not_mem_toDigits (by decide) sequence (List.mem_of_head? sign)
  simp only [sequenceOf?, if_neg noSign, Nat.toDigits_ne_nil, Decimal.all_isDigit_toDigits,
    not_true_eq_false, or_self, if_false, Decimal.foldl_toDigits, if_pos bound]

theorem sequence_of_revision {document : Json} {sequence : Nat} {stamp : String}
    (carries : document.member? revisionMember = some (.string (revisionText sequence stamp)))
    (bound : sequence ≤ maxSequence) : document.sequence = sequence := by
  have text : document.stringMember? revisionMember = some (revisionText sequence stamp) := by
    rw [Json.stringMember?, carries]
    rfl
  simp only [Json.sequence, text, Option.bind_some, cutAt?_revisionText,
    sequenceOf?_toDigits bound, Option.getD_some]

namespace Store

/-- What is stored carries the revision that is acknowledged, whatever the names of the
document that was written. -/
theorem revision_revised (sequence : Nat) (members : Fields Json) (key : String) :
    (revised sequence members key).document.member? revisionMember =
      some (.string (revised sequence members key).ack.revision) :=
  Fields.get?_put_self _ _ _

theorem key_revised (sequence : Nat) (members : Fields Json) (key : String) :
    (revised sequence members key).document.member? idMember = some (.string key) := by
  rw [revised, Json.member?, Fields.get?_put_of_ne _ _ (by decide), Fields.get?_put_self]

/-- The revision that is acknowledged has the next sequence number and a stamp. -/
theorem revised_ack (sequence : Nat) (members : Fields Json) (key : String) :
    ∃ stamp, Digest.IsStamp stamp ∧
      (revised sequence members key).ack = ⟨key, revisionText (sequence + 1) stamp⟩ :=
  ⟨_, Digest.isStamp_stamp _, rfl⟩

/-- What is stored has the next sequence number, as long as there is one. -/
theorem sequence_revised {sequence : Nat} (room : sequence < maxSequence) (members : Fields Json)
    (key : String) : (revised sequence members key).document.sequence = sequence + 1 := by
  obtain ⟨stamp, _, ack⟩ := revised_ack sequence members key
  have carries := revision_revised sequence members key
  rw [ack] at carries
  exact sequence_of_revision carries room

end Store

end Folio
