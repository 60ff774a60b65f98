import Folio.Proofs.Store.Revision
import Folio.Proofs.Store.Write
import Folio.Store.Access

/-!
# Revisions over a run of writes

The revisions that are acknowledged for one key are numbered one after the other,
also when the document is deleted and written again, and whatever the documents say
about their keys and revisions.  A document that is alive is replaced only by a write
that gives the revision acknowledged last.
-/

namespace Folio.Store

/-- A write that is asked of a store. -/
structure Write where
  document : Json
  key : String

/-- A run of writes with their answers, and the store that it leaves. -/
def writes (store : Store) : List Write → List (Write × Except StoreError Ack) × Store
  | [] => ([], store)
  | write :: rest =>
      let (answer, next) := DocumentStore.insert store write.document write.key
      let (history, last) := writes next rest
      ((write, answer) :: history, last)

/-- The revision that a write acknowledges for a key. -/
def acknowledged? (key : String) : Write × Except StoreError Ack → Option String
  | (write, .ok ack) => if write.key = key then some ack.revision else none
  | (_, .error _) => none

/-- The revisions that are acknowledged for a key, in order. -/
def revisionsOf (key : String) (history : List (Write × Except StoreError Ack)) : List String :=
  history.filterMap (acknowledged? key)

/-- The revisions are numbered from one, each with a stamp. -/
def Numbered (revisions : List String) : Prop :=
  ∀ n revision, revisions[n]? = some revision →
    ∃ stamp, Digest.IsStamp stamp ∧ revision = revisionText (n + 1) stamp

/-- What stands under a key carries the last of the revisions that were acknowledged
for it. -/
structure Tracks (store : Store) (key : String) (revisions : List String) : Prop where
  numbered : Numbered revisions
  current : (store.current? key).map (Json.member? · revisionMember) =
    revisions.getLast?.map fun last => some (.string last)

section Numbered

variable {revisions : List String}

/-- Numbered revisions are distinct. -/
theorem Numbered.nodup (numbered : Numbered revisions) : revisions.Nodup := by
  rw [List.nodup_iff_getElem?_ne_getElem?]
  intro first second below bound same
  obtain ⟨stamp, _, text⟩ := numbered first _ (List.getElem?_eq_getElem (by omega))
  obtain ⟨other, _, otherText⟩ := numbered second _ (List.getElem?_eq_getElem bound)
  rw [List.getElem?_eq_getElem bound, List.getElem?_eq_getElem (by omega), Option.some.injEq,
    text, otherText] at same
  have equal := sequence_eq_of_revisionText_eq same
  omega

/-- The last of numbered revisions has their number. -/
theorem Numbered.getLast? (numbered : Numbered revisions) {last : String}
    (found : revisions.getLast? = some last) :
    ∃ stamp, last = revisionText revisions.length stamp := by
  have nonempty : revisions ≠ [] := by
    rintro rfl
    simp at found
  rw [List.getLast?_eq_getElem?] at found
  rcases numbered _ last found with ⟨stamp, _, text⟩
  have size := List.length_pos_iff.mpr nonempty
  rw [Nat.sub_add_cancel size] at text
  exact ⟨stamp, text⟩

/-- The next number may follow. -/
theorem Numbered.concat (numbered : Numbered revisions) {stamp : String}
    (isStamp : Digest.IsStamp stamp) :
    Numbered (revisions ++ [revisionText (revisions.length + 1) stamp]) := by
  intro n revision found
  rw [List.getElem?_append] at found
  split at found
  · exact numbered n revision found
  · rename_i beyond
    rw [List.getElem?_singleton] at found
    split at found
    · rename_i first
      have place : n = revisions.length := by omega
      rw [place]
      exact ⟨stamp, isStamp, (Option.some.inj found).symm⟩
    · contradiction

end Numbered

section Tracks

variable {store : Store} {key : String} {revisions : List String}

theorem tracks_empty (key : String) : Tracks empty key [] where
  numbered := by simp [Numbered]
  current := rfl

/-- The sequence number under a key counts the revisions acknowledged for it. -/
theorem Tracks.sequence (tracks : Tracks store key revisions)
    (bound : revisions.length ≤ maxSequence) :
    ((store.current? key).map Json.sequence).getD 0 = revisions.length := by
  have current := tracks.current
  cases last : revisions.getLast? with
  | none =>
      rw [last, Option.map_none, Option.map_eq_none_iff] at current
      rw [current, List.getLast?_eq_none_iff.mp last]
      rfl
  | some revision =>
      rw [last, Option.map_some, Option.map_eq_some_iff] at current
      rcases current with ⟨document, here, carries⟩
      rcases tracks.numbered.getLast? last with ⟨stamp, text⟩
      rw [here, Option.map_some, Option.getD_some]
      exact sequence_of_revision (text ▸ carries) bound

/-- A document that is alive is replaced only by the revision acknowledged last. -/
theorem Tracks.accepts_iff (tracks : Tracks store key revisions) (given : Option Json) :
    store.accepts key given = true ↔ store.live? key = none ∨
      ∃ last, revisions.getLast? = some last ∧ given = some (.string last) := by
  cases alive : store.live? key with
  | none => simp [accepts_of_live?_eq_none alive]
  | some document =>
      have here := (live?_eq_some_iff.mp alive).1
      have current := tracks.current
      rw [here, Option.map_some, eq_comm, Option.map_eq_some_iff] at current
      rcases current with ⟨last, found, carries⟩
      rw [accepts_of_live?_eq_some alive, ← carries, sameRevision_string_iff]
      simp [found]

end Tracks

/-! ## One write -/

section Step

variable {store : Store} {key : String} {revisions : List String}

/-- Whether a write has to be acknowledged: the document is an object, and nothing is
alive under the key or the revision acknowledged last is given. -/
def Admissible (store : Store) (key : String) (revisions : List String) (document : Json) : Prop :=
  ∃ members, document = .object members ∧
    (store.live? key = none ∨
      ∃ last, revisions.getLast? = some last ∧
        Fields.get? members revisionMember = some (.string last))

/-- How a write that is not acknowledged is refused. -/
def refusal (key : String) : Json → StoreError
  | .object _ => .conflict s!"{key}: document update conflict"
  | _ => .internal s!"{key}: document must be an object"

theorem Tracks.insert_of_admissible (tracks : Tracks store key revisions)
    (bound : revisions.length ≤ maxSequence) {document : Json}
    (admissible : Admissible store key revisions document) :
    ∃ members, document = .object members ∧
      DocumentStore.insert store document key =
        (.ok (revised revisions.length members key).ack,
          store.place key (revised revisions.length members key).document) := by
  rcases admissible with ⟨members, rfl, free⟩
  refine ⟨members, rfl, ?_⟩
  have accepted := (tracks.accepts_iff (Fields.get? members revisionMember)).mpr free
  simp only [DocumentStore.insert, insert_of_accepts accepted, tracks.sequence bound]

/-- A write that is not admissible is refused and changes nothing. -/
theorem Tracks.insert_of_not_admissible (tracks : Tracks store key revisions) {document : Json}
    (inadmissible : ¬ Admissible store key revisions document) :
    DocumentStore.insert store document key = (.error (refusal key document), store) := by
  cases document with
  | object members =>
      have refused : store.accepts key (Fields.get? members revisionMember) = false := by
        rw [Bool.eq_false_iff]
        intro accepted
        exact inadmissible ⟨members, rfl, (tracks.accepts_iff _).mp accepted⟩
      simp only [DocumentStore.insert, insert_of_not_accepts refused, refusal]
  | null => rfl
  | bool value => rfl
  | number value => rfl
  | string value => rfl
  | array items => rfl

/-- A write leaves what stands under the other keys. -/
theorem current?_insert_of_ne {other : String} (different : other ≠ key) (document : Json) :
    (DocumentStore.insert store document key).2.current? other = store.current? other := by
  simp only [DocumentStore.insert]
  rcases written : store.insert document key with error | ⟨ack, next⟩
  · rfl
  · rcases exists_of_insert_eq_ok written with ⟨members, sequence, _, placed⟩
    rw [placed]
    exact current?_place_of_ne different _

theorem acknowledged?_of_ne {write : Write} (different : write.key ≠ key)
    (answer : Except StoreError Ack) : acknowledged? key (write, answer) = none := by
  cases answer with
  | error error => rfl
  | ok ack => exact if_neg different

/-- One write acknowledges the next revision of its key, or nothing. -/
theorem Tracks.step (tracks : Tracks store key revisions)
    (bound : revisions.length ≤ maxSequence) (write : Write) :
    Tracks (DocumentStore.insert store write.document write.key).2 key
      (revisions ++ (acknowledged? key
        (write, (DocumentStore.insert store write.document write.key).1)).toList) := by
  by_cases here : write.key = key
  · subst here
    by_cases admissible : Admissible store write.key revisions write.document
    · rcases tracks.insert_of_admissible bound admissible with ⟨members, _, run⟩
      obtain ⟨stamp, isStamp, ack⟩ := revised_ack revisions.length members write.key
      rw [run]
      simp only [acknowledged?, if_true, Option.toList_some]
      constructor
      · rw [ack]
        exact tracks.numbered.concat isStamp
      · rw [current?_place_self, Option.map_some, List.getLast?_concat, Option.map_some,
          revision_revised]
    · rw [tracks.insert_of_not_admissible admissible]
      simpa [acknowledged?] using tracks
  · rw [acknowledged?_of_ne here, Option.toList_none, List.append_nil]
    exact ⟨tracks.numbered, by rw [current?_insert_of_ne (Ne.symm here), tracks.current]⟩

end Step

/-! ## What is alive -/

/-- The document of a write that is acknowledged for a key. -/
def accepted? (key : String) (entry : Write × Except StoreError Ack) : Option Json :=
  (acknowledged? key entry).map fun _ => entry.1.document

/-- The documents that are acknowledged for a key, in order. -/
def documentsOf (key : String) (history : List (Write × Except StoreError Ack)) : List Json :=
  history.filterMap (accepted? key)

/-- What stands under a key is marked as deleted as the last document was that was
acknowledged for it. -/
def Marks (store : Store) (key : String) (documents : List Json) : Prop :=
  (store.current? key).map Json.isDeleted = documents.getLast?.map Json.isDeleted

theorem isDeleted_iff {document : Json} :
    document.isDeleted = true ↔ document.member? deletedMember = some (.bool true) := by
  rw [Json.isDeleted, beq_iff_eq]
  rcases document.member? deletedMember with _ | value
  · simp
  · cases value <;> simp [Json.bool?]

section Marks

variable {store : Store} {key : String} {documents : List Json}

theorem isDeleted_revised {members : Fields Json} (distinct : (Fields.names members).Nodup)
    (sequence : Nat) (key : String) :
    (revised sequence members key).document.isDeleted = (Json.object members).isDeleted := by
  have mark : (revised sequence members key).document.member? deletedMember =
      Fields.get? members deletedMember := by
    rw [revised, Json.member?, Fields.get?_put_of_ne _ _ (by decide),
      Fields.get?_put_of_ne _ _ (by decide), Fields.get?_erase distinct, if_neg (by decide)]
  rw [Json.isDeleted, Json.isDeleted, mark, Json.member?]

theorem Marks.step (marks : Marks store key documents) {write : Write}
    (wellFormed : write.document.WellFormed) :
    Marks (DocumentStore.insert store write.document write.key).2 key (documents ++ (accepted? key
      (write, (DocumentStore.insert store write.document write.key).1)).toList) := by
  by_cases here : write.key = key
  · subst here
    simp only [DocumentStore.insert]
    rcases written : store.insert write.document write.key with error | ⟨ack, next⟩
    · simpa [accepted?, acknowledged?] using marks
    · rcases exists_of_insert_eq_ok written with ⟨members, sequence, object, rfl⟩
      rw [object] at wellFormed
      simp only [accepted?, acknowledged?, if_true, Option.toList_some, Marks,
        List.getLast?_concat, current?_place_self, Option.map_some, object]
      rw [isDeleted_revised wellFormed.1]
  · rw [accepted?, acknowledged?_of_ne here, Option.map_none, Option.toList_none,
      List.append_nil, Marks, current?_insert_of_ne (Ne.symm here)]
    exact marks

/-- Nothing is alive under a key unless the last document that was acknowledged for it is not
marked as deleted. -/
theorem Marks.live?_eq_none_iff (marks : Marks store key documents) :
    store.live? key = none ↔ ∀ document, documents.getLast? = some document →
      document.isDeleted = true := by
  rw [Marks] at marks
  rw [live?, Option.filter_eq_none_iff]
  cases stored : store.current? key with
  | none =>
      rw [stored, Option.map_none, eq_comm, Option.map_eq_none_iff] at marks
      simp [marks]
  | some document =>
      rw [stored, Option.map_some, eq_comm, Option.map_eq_some_iff] at marks
      rcases marks with ⟨last, found, mark⟩
      simp [found, mark]

end Marks

/-! ## Runs -/

theorem filterMap_writes_cons {α : Type} (tell? : Write × Except StoreError Ack → Option α)
    (store : Store) (write : Write) (rest : List Write) :
    (store.writes (write :: rest)).1.filterMap tell? =
      (tell? (write, (DocumentStore.insert store write.document write.key).1)).toList ++
        ((DocumentStore.insert store write.document write.key).2.writes rest).1.filterMap
          tell? := by
  simp only [Store.writes, List.filterMap_cons]
  split <;> simp_all

/-- A run acknowledges revisions behind those acknowledged before it. -/
theorem Tracks.writes {store : Store} {key : String} {revisions : List String}
    (tracks : Tracks store key revisions) {writes : List Write}
    (bound : (revisions ++ revisionsOf key (store.writes writes).1).length ≤ maxSequence) :
    Tracks (store.writes writes).2 key (revisions ++ revisionsOf key (store.writes writes).1) := by
  induction writes generalizing store revisions with
  | nil => simpa [Store.writes, revisionsOf] using tracks
  | cons write rest ih =>
      rw [revisionsOf, filterMap_writes_cons, ← List.append_assoc] at bound ⊢
      have start : revisions.length ≤ maxSequence := by
        simp only [List.length_append] at bound
        omega
      exact ih (tracks.step start write) bound

/-- A run marks what stands under a key as the last document acknowledged for it. -/
theorem Marks.writes {store : Store} {key : String} {documents : List Json}
    (marks : Marks store key documents) {writes : List Write}
    (wellFormed : ∀ write ∈ writes, write.document.WellFormed) :
    Marks (store.writes writes).2 key (documents ++ documentsOf key (store.writes writes).1) := by
  induction writes generalizing store documents with
  | nil => simpa [Store.writes, documentsOf] using marks
  | cons write rest ih =>
      rw [List.forall_mem_cons] at wellFormed
      rw [documentsOf, filterMap_writes_cons, ← List.append_assoc]
      exact ih (marks.step wellFormed.1) wellFormed.2

/-- After every run of writes on an empty store the revisions acknowledged for a key
are numbered and distinct, and the next write under the key is acknowledged with the
next number exactly when it is admissible.  Nothing is alive under the key when no document
was acknowledged for it, or the last one is marked as deleted. -/
theorem writes_disciplined (writes : List Write) (key : String)
    (bound : (revisionsOf key (empty.writes writes).1).length < maxSequence) :
    Numbered (revisionsOf key (empty.writes writes).1) ∧
    (revisionsOf key (empty.writes writes).1).Nodup ∧
    (∀ document,
      (Admissible (empty.writes writes).2 key (revisionsOf key (empty.writes writes).1) document →
        ∃ stamp next, Digest.IsStamp stamp ∧
          DocumentStore.insert (empty.writes writes).2 document key =
            (.ok ⟨key, revisionText
              ((revisionsOf key (empty.writes writes).1).length + 1) stamp⟩, next)) ∧
      (¬ Admissible (empty.writes writes).2 key (revisionsOf key (empty.writes writes).1) document →
        DocumentStore.insert (empty.writes writes).2 document key =
          (.error (refusal key document), (empty.writes writes).2))) ∧
    ((∀ write ∈ writes, write.document.WellFormed) →
      ((empty.writes writes).2.live? key = none ↔
        ∀ document, (documentsOf key (empty.writes writes).1).getLast? = some document →
          document.member? deletedMember = some (.bool true))) := by
  have tracks : Tracks (empty.writes writes).2 key (revisionsOf key (empty.writes writes).1) := by
    simpa using (tracks_empty key).writes (by simpa using Nat.le_of_lt bound)
  refine ⟨tracks.numbered, tracks.numbered.nodup, fun document => ⟨?_, ?_⟩, ?_⟩
  · intro admissible
    obtain ⟨members, _, run⟩ := tracks.insert_of_admissible (Nat.le_of_lt bound) admissible
    obtain ⟨stamp, isStamp, ack⟩ := revised_ack (revisionsOf key (empty.writes writes).1).length
      members key
    exact ⟨stamp, _, isStamp, by rw [run, ack]⟩
  · exact tracks.insert_of_not_admissible
  · intro wellFormed
    have start : Marks empty key [] := rfl
    have marks : Marks (empty.writes writes).2 key (documentsOf key (empty.writes writes).1) := by
      simpa using start.writes wellFormed
    simp only [marks.live?_eq_none_iff, isDeleted_iff]

/-- A document that is alive is not replaced by a write that gives no revision. -/
theorem second_write_refused :
    (revisionsOf "k" (empty.writes [⟨.object [], "k"⟩]).1).length < maxSequence ∧
      DocumentStore.insert (empty.writes [⟨.object [], "k"⟩]).2 (.object [("n", .null)]) "k" =
        (.error (.conflict "k: document update conflict"),
          (empty.writes [⟨.object [], "k"⟩]).2) := by
  have bound : (revisionsOf "k" (empty.writes [⟨.object [], "k"⟩]).1).length < maxSequence := by
    decide
  refine ⟨bound, ((writes_disciplined _ _ bound).2.2.1 _).2 ?_⟩
  rintro ⟨members, same, dead | ⟨last, _, given⟩⟩
  · have alive : ((empty.writes [⟨.object [], "k"⟩]).2.live? "k").isSome = true := by decide
    rw [dead] at alive
    contradiction
  · cases same
    simp [Fields.get?, revisionMember] at given

end Folio.Store
