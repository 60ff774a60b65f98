import Folio.Journal.Record
import Folio.Proofs.Json.Legible

/-!
# Records that are written and read

A record is written on one line.  Its document stands two levels deep in that line, so
that a document which the reader takes by itself may be too deep to be read from a
record; and an object whose first member would embed a text is not read at all.
-/

namespace Folio

open Json Json.Reader

namespace JournalRecord

/-! ## Documents -/

/-- The members of a document as the store writes it: plain, and more than one. -/
structure Composed (members : List (String × Json)) : Prop where
  distinct : (Fields.names members).Nodup
  plain : ∀ entry ∈ members, entry.2.Plain
  many : 2 ≤ members.length

/-- What a document is read as from its record. -/
def recovered? (members : List (String × Json)) : Option Json :=
  if Embeds members then none else reread? documentLevels (.object members)

/-- Whether a document is read back from its record: it is not too deep, its numbers are
read back, and its first member embeds no text. -/
def Legible (document : Json) : Prop :=
  document.Within documentLevels (fun number => number.reread?.isSome) ∧
    ¬ Embeds (document.object?.getD [])

/-- Whether a document is read back from its record as it was. -/
def Restorable (document : Json) : Prop :=
  document.Within documentLevels (fun number => number.reread? = some number) ∧
    ¬ Embeds (document.object?.getD [])

theorem recovered?_isSome_iff {members : List (String × Json)} :
    (recovered? members).isSome ↔ Legible (.object members) := by
  rw [recovered?, Legible, ← reread?_isSome_iff, object?, Option.getD_some]
  split
  · rename_i embeds
    simp [embeds]
  · rename_i noText
    simp [noText]

theorem recovered?_eq_self_iff {members : List (String × Json)} :
    recovered? members = some (.object members) ↔ Restorable (.object members) := by
  rw [recovered?, Restorable, ← reread?_eq_self_iff, object?, Option.getD_some]
  split
  · rename_i embeds
    simp [embeds]
  · rename_i noText
    simp [noText]

/-- A document is read from a record as told. -/
theorem follows_readDocument {members : List (String × Json)} (composed : Composed members) :
    Follows readDocument (.object members) (recovered? members) := by
  intro rest delimited
  rw [readDocument, Json.Reader.value, recovered?]
  split
  · rename_i embeds
    rcases members with _ | ⟨first, _ | ⟨second, more⟩⟩
    · exact absurd composed.many (by simp)
    · exact absurd composed.many (by simp)
    · exact valueWith_embedding (Option.some.inj embeds) _ _
  · rename_i noText
    have each : ∀ entry ∈ members, Follows
        (valueWith (whole (chars (.object members) ++ rest).length) .keep (documentLevels - 1))
        entry.2 (entry.2.reread? (documentLevels - 1)) :=
      fun entry member => follows_reread? (composed.plain entry member) _
    exact valueWith_object composed.distinct noText each rest delimited

/-! ## Lines -/

theorem ofList_line (entry : JournalRecord) : String.ofList entry.line =
    (Json.object [("Insert", .object [("key", .string entry.key), ("doc", entry.document)])]).text :=
  rfl

theorem readKey_quote (text : String) (rest : List Char) :
    readKey (quote text ++ rest) = .ok (text, rest) := by
  rw [quote_append, readKey, skipBlanks_cons (by decide)]
  exact string_quote text rest

/-- What the members of a record are read as. -/
def partSpec (entry : String × Json) : Option Part :=
  match entry.2 with
  | .string key => some (.key key)
  | .object members => (recovered? members).map .document
  | _ => none

/-- The content of a record is read as its key and its document. -/
theorem readMembers?_charsMembers (key : String) {members : List (String × Json)}
    (composed : Composed members) (rest : List Char) :
    readMembers? (charsMembers [("key", .string key), ("doc", .object members)] ++ '}' :: rest) =
      (recovered? members).map fun document => (⟨key, document⟩, rest) := by
  have readsKey : Follows (readPart "key") (.string key) (some (.key key)) := by
    intro rest _
    rw [readPart, if_pos rfl, toOption_bind, chars, readKey_quote]
    rfl
  have readsDocument : Follows (readPart "doc") (.object members)
      ((recovered? members).map .document) := by
    intro rest delimited
    rw [readPart, if_neg (by decide), if_pos rfl, toOption_bind,
      follows_readDocument composed rest delimited]
    cases recovered? members <;> rfl
  have each : ∀ entry ∈ [("key", .string key), ("doc", .object members)],
      Follows (readPart entry.1) entry.2 (partSpec entry) := by
    rw [List.forall_mem_cons, List.forall_mem_singleton]
    exact ⟨readsKey, readsDocument⟩
  rw [readMembers?, members_toOption each]
  simp only [List.mapM_cons, List.mapM_nil, namedSpec, partSpec]
  cases recovered? members <;> rfl

/-- A record is read back from its line with its key, and with its document as told. -/
theorem read?_line (key : String) {members : List (String × Json)} (composed : Composed members) :
    read? (line ⟨key, .object members⟩) =
      (recovered? members).map fun document => ⟨key, document⟩ := by
  have spelt : line ⟨key, .object members⟩ = '{' :: (quote "Insert" ++ ':' :: '{' ::
      (charsMembers [("key", .string key), ("doc", .object members)] ++ '}' :: ['}'])) := by
    simp [line, toJson, chars, charsMembers]
  have opened (rest : List Char) : expect? '{' ('{' :: rest) = some rest := rfl
  have separated (rest : List Char) : expect? ':' (':' :: rest) = some rest := rfl
  have content (rest : List Char) : readContent? ('{' :: rest) = readMembers? rest := rfl
  simp only [read?, spelt, opened, readKey_quote, Except.toOption, separated, content,
    readMembers?_charsMembers key composed, Option.bind_eq_bind, Option.bind_some, if_true]
  cases recovered? members <;> rfl

/-! ## Line feeds -/

end JournalRecord

namespace Json

theorem lineFeed_not_mem_charsMoreItems {more : List Json}
    (each : ∀ item ∈ more, '\n' ∉ item.chars) : '\n' ∉ charsMoreItems more := by
  simp only [charsMoreItems, List.mem_flatMap, List.mem_cons, not_exists, not_and, not_or]
  exact fun item member => ⟨by decide, each item member⟩

theorem lineFeed_not_mem_charsMember {entry : String × Json} (inside : '\n' ∉ entry.2.chars) :
    '\n' ∉ charsMember entry := by
  simp only [charsMember, List.mem_append, List.mem_cons, not_or]
  exact ⟨lineFeed_not_mem_quote entry.1, by decide, inside⟩

/-- No value is written with a line feed. -/
theorem lineFeed_not_mem_chars (value : Json) : '\n' ∉ value.chars := by
  induction value using induction_values with
  | null => decide
  | bool truth => cases truth <;> decide
  | number number => exact number.lineFeed_not_mem_chars
  | string text => exact lineFeed_not_mem_quote text
  | array items ih =>
      have inside : '\n' ∉ charsItems items := by
        cases items with
        | nil => simp [charsItems]
        | cons item more =>
            rw [List.forall_mem_cons] at ih
            rw [charsItems_cons, List.mem_append, not_or]
            exact ⟨ih.1, lineFeed_not_mem_charsMoreItems ih.2⟩
      simp [chars, inside]
  | object members ih =>
      have inside : '\n' ∉ charsMembers members := by
        cases members with
        | nil => simp [charsMembers]
        | cons entry more =>
            rw [List.forall_mem_cons] at ih
            rw [charsMembers_cons, List.mem_append, not_or]
            refine ⟨lineFeed_not_mem_charsMember ih.1, ?_⟩
            simp only [charsMoreMembers, List.mem_flatMap, List.mem_cons, not_exists, not_and,
              not_or]
            exact fun other member => ⟨by decide, lineFeed_not_mem_charsMember (ih.2 other member)⟩
      simp [chars, inside]

end Json

end Folio
