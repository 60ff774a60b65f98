import Folio.Digest.Blake3
import Folio.Decimal.Literal
import Folio.Json.Printer
import Folio.Text.Search

/-!
# The store of documents

The store holds one document under each key, in ascending order of the keys.
A document is an object; the store writes its key and its revision into it.  A
revision is a sequence number and a stamp of the document.  Who replaces a
document that is alive has to give its current revision; a document marked as
deleted stays as a tombstone, which keeps the sequence number and is not seen.

The order of the keys is that of their code points, which is also the order of
their bytes in UTF-8.
-/

namespace Folio

open Digest Text

/-- Why the store refuses. -/
inductive StoreError where
  | notFound (key : String)
  | conflict (reason : String)
  | io (reason : String)
  | internal (reason : String)
deriving DecidableEq, Inhabited, Repr

/-- The wording of a refusal. -/
def StoreError.message : StoreError → String
  | .notFound key => s!"document not found: {key}"
  | .conflict reason => s!"conflict: {reason}"
  | .io reason => s!"io error: {reason}"
  | .internal reason => s!"internal error: {reason}"

/-- The member that holds the key of a stored document. -/
def idMember : String := "_id"

/-- The member that holds the revision of a stored document. -/
def revisionMember : String := "_rev"

/-- The member that marks a document as deleted. -/
def deletedMember : String := "_deleted"

/-- The members that belong to the store. -/
def privateMembers : List String := [idMember, revisionMember, deletedMember]

/-- Whether a document is marked as deleted. -/
def Json.isDeleted (document : Json) : Bool :=
  (document.member? deletedMember).bind Json.bool? == some true

/-- The largest sequence number of a revision. -/
def maxSequence : Nat := Decimal.twoTo 64 - 1

/-- The number that decimal digits stand for, behind an optional plus sign, if it
is within the range of sequence numbers. -/
def sequenceOf? (chars : List Char) : Option Nat :=
  let digits := if chars.head? = some '+' then chars.tail else chars
  if digits = [] ∨ ¬ digits.all Decimal.isDigit then none
  else
    let value := digits.foldl (fun value digit => value * 10 + Decimal.digitValue digit) 0
    if value ≤ maxSequence then some value else none

/-- The sequence number of a document's revision; zero if it has none. -/
def Json.sequence (document : Json) : Nat :=
  match (document.stringMember? revisionMember).bind fun text => cutAt? '-' text.toList with
  | some (front, _) => (sequenceOf? front).getD 0
  | none => 0

/-- Whether two revisions, either of which may be missing, are the same. -/
def sameRevision : Option Json → Option Json → Bool
  | none, none => true
  | some given, some current => given.same current
  | _, _ => false

/-- The text of a revision. -/
def revisionText (sequence : Nat) (stamp : String) : String :=
  String.ofList (Nat.toDigits 10 sequence ++ '-' :: stamp.toList)

/-- What the store answers to a write: the key and the new revision. -/
structure Ack where
  id : String
  revision : String
deriving DecidableEq, Inhabited, Repr

/-- A document that is ready to be stored, with its key and revision in it. -/
structure Revision where
  ack : Ack
  document : Json
deriving Inhabited, Repr

/-! ## Keys in ascending order -/

/-- Put a document under a key, keeping the keys in ascending order. -/
def placeUnder (key : String) (document : Json) :
    List (String × Json) → List (String × Json)
  | [] => [(key, document)]
  | (other, old) :: rest =>
      if key = other then (key, document) :: rest
      else if key < other then (key, document) :: (other, old) :: rest
      else (other, old) :: placeUnder key document rest

/-- The keys are those there were and the new one. -/
theorem mem_placeUnder {key : String} {document : Json} {entries : List (String × Json)}
    {entry : String × Json} (member : entry ∈ placeUnder key document entries) :
    entry = (key, document) ∨ entry ∈ entries := by
  induction entries with
  | nil => simpa [placeUnder] using member
  | cons first rest ih =>
      obtain ⟨other, old⟩ := first
      by_cases equal : key = other
      · simp only [placeUnder, equal, if_true, List.mem_cons] at member
        rcases member with new | old
        · exact .inl (by rw [new, equal])
        · exact .inr (List.mem_cons_of_mem _ old)
      · by_cases below : key < other
        · simp only [placeUnder, equal, below, if_true, if_false, List.mem_cons] at member
          simpa using member
        · simp only [placeUnder, equal, below, if_false, List.mem_cons] at member
          rcases member with kept | deeper
          · exact .inr (by simp [kept])
          · rcases ih deeper with new | old
            · exact .inl new
            · exact .inr (List.mem_cons_of_mem _ old)

/-- Putting a document under a key keeps the keys in ascending order. -/
theorem pairwise_placeUnder (key : String) (document : Json) {entries : List (String × Json)}
    (ascending : entries.Pairwise fun a b => a.1 < b.1) :
    (placeUnder key document entries).Pairwise fun a b => a.1 < b.1 := by
  induction entries with
  | nil => simp [placeUnder]
  | cons first rest ih =>
      obtain ⟨other, old⟩ := first
      have ⟨above, deeper⟩ := List.pairwise_cons.mp ascending
      by_cases equal : key = other
      · simp only [placeUnder, equal, if_true]
        exact List.pairwise_cons.mpr ⟨above, deeper⟩
      · by_cases below : key < other
        · simp only [placeUnder, equal, below, if_true, if_false]
          refine List.pairwise_cons.mpr ⟨?_, ascending⟩
          intro entry member
          rcases List.mem_cons.mp member with rfl | member
          · exact below
          · exact String.lt_trans below (above entry member)
        · simp only [placeUnder, equal, below, if_false]
          refine List.pairwise_cons.mpr ⟨?_, ih deeper⟩
          intro entry member
          rcases mem_placeUnder member with rfl | member
          · have least : other ≤ key := String.not_lt.mp below
            exact Decidable.byContradiction fun notBelow =>
              equal (String.le_antisymm (String.not_lt.mp notBelow) least)
          · exact above entry member

/-- Documents under keys, tombstones among them. -/
structure Store where
  entries : List (String × Json)
  ascending : entries.Pairwise fun a b => a.1 < b.1

namespace Store

/-- The store without documents. -/
def empty : Store := ⟨[], List.Pairwise.nil⟩

instance : Inhabited Store := ⟨empty⟩

/-- What is stored under a key, be it a tombstone. -/
def current? (store : Store) (key : String) : Option Json :=
  Fields.get? store.entries key

/-- What is stored under a key, if it is alive. -/
def live? (store : Store) (key : String) : Option Json :=
  (store.current? key).filter fun document => !document.isDeleted

/-- Put a document under a key as it is. -/
def place (store : Store) (key : String) (document : Json) : Store :=
  ⟨placeUnder key document store.entries, pairwise_placeUnder key document store.ascending⟩

/-- The document under a key. -/
def get (store : Store) (key : String) : Except StoreError Json :=
  match store.live? key with
  | some document => .ok document
  | none => .error (.notFound key)

/-- The documents that are alive, in the order of their keys. -/
def documents (store : Store) : List Json :=
  (store.entries.map Prod.snd).filter fun document => !document.isDeleted

/-- The number of documents that are alive. -/
def size (store : Store) : Nat :=
  (store.entries.map Prod.snd).countP fun document => !document.isDeleted

/-- Whether a write that gives a revision may replace what is stored. -/
def accepts (store : Store) (key : String) (given : Option Json) : Bool :=
  match store.live? key with
  | some document => sameRevision given (document.member? revisionMember)
  | none => true

/-- The members of a document that is stored under a key: without the revision
that was given, with the key, and with a revision made from the next sequence
number and the stamp of all that.  There is a next number below `maxSequence` only:
at the last one, which a document that was put back may have, counting on fails, and what is
said here does not happen. -/
def revised (sequence : Nat) (members : Fields Json) (key : String) : Revision :=
  let keyed := Fields.put (Fields.erase members revisionMember) idMember (.string key)
  let revision := revisionText (sequence + 1) (stamp (Json.object keyed).text)
  ⟨⟨key, revision⟩, .object (Fields.put keyed revisionMember (.string revision))⟩

/-- Make a document ready to be stored under a key. -/
def revise (store : Store) (document : Json) (key : String) : Except StoreError Revision :=
  match document with
  | .object members =>
      if store.accepts key (Fields.get? members revisionMember) then
        .ok (revised (((store.current? key).map Json.sequence).getD 0) members key)
      else .error (.conflict s!"{key}: document update conflict")
  | _ => .error (.internal s!"{key}: document must be an object")

/-- Store a revision. -/
def keep (store : Store) (revision : Revision) : Store :=
  store.place revision.ack.id revision.document

/-- Write a document under a key. -/
def insert (store : Store) (document : Json) (key : String) :
    Except StoreError (Ack × Store) :=
  (store.revise document key).map fun revision => (revision.ack, store.keep revision)

/-- Put a document back that was stored before, under the key that it carries;
one that carries none is left out. -/
def restore (store : Store) (document : Json) : Store :=
  match document.stringMember? idMember with
  | some key => store.place key document
  | none => store

end Store

end Folio
