import Folio.Proofs.Json.Numbers
import Folio.Proofs.Json.Strings
import Folio.Proofs.Json.Values

/-!
# What values are read back as

A value that is written in the compact form and read again keeps its shape as long as
the reader has enough levels and can read every number in it; only numbers may differ.
The reader of arrays and objects is followed here for any reader of their items and
members, since the records of a journal use it with a reader of their own.
-/

namespace Folio.Json

open Text Reader

/-! ## Where a value starts and ends -/

theorem delimited_cons {c : Char} (ends : c = ',' ∨ c = ']' ∨ c = '}') (rest : List Char) :
    Delimited (c :: rest) := by
  intro next head
  cases head
  rcases ends with rfl | rfl | rfl <;> exact ⟨by decide, by decide⟩

/-- Whether a character may start a value. -/
def Starts (c : Char) : Prop := Reader.isBlank c = false ∧ c ≠ ']' ∧ c ≠ '}'

instance (c : Char) : Decidable (Starts c) := inferInstanceAs (Decidable (_ ∧ _ ∧ _))

/-- Whether a number may start with a character. -/
def startsNumber (c : Char) : Bool := Decimal.isDigit c || c == '-'

theorem ne_of_startsNumber {c other : Char} (starts : startsNumber c = true)
    (others : startsNumber other = false) : c ≠ other := by
  rintro rfl
  rw [others] at starts
  contradiction

/-- A number starts with a digit or a sign. -/
theorem exists_number_chars (number : Number) :
    ∃ c tail, number.chars = c :: tail ∧ startsNumber c = true := by
  rcases Number.isNumeral_chars number with ⟨parts, spelt, text⟩
  cases sign : parts.negative with
  | true =>
      refine ⟨'-', parts.spelling, ?_, rfl⟩
      rw [text, sign]
      rfl
  | false =>
      cases whole : parts.whole with
      | nil => exact absurd whole spelt.nonempty
      | cons c digits =>
          refine ⟨c, digits ++ fractionChars parts.fraction ++ exponentChars parts.exponent, ?_, ?_⟩
          · rw [text, sign, Literal.spelling, whole]
            rfl
          · rw [startsNumber, spelt.whole c (by simp [whole]), Bool.true_or]

theorem starts_of_startsNumber {c : Char} (starts : startsNumber c = true) : Starts c := by
  have apart (other : Char) (others : startsNumber other = false) : c ≠ other :=
    ne_of_startsNumber starts others
  constructor
  · simp [Reader.isBlank, apart ' ' rfl, apart '\n' rfl, apart '\t' rfl, apart '\r' rfl]
  · exact ⟨apart ']' rfl, apart '}' rfl⟩

theorem exists_chars_eq_cons (value : Json) : ∃ c tail, value.chars = c :: tail ∧ Starts c := by
  cases value with
  | null => exact ⟨'n', _, rfl, by decide⟩
  | bool truth => cases truth <;> exact ⟨_, _, rfl, by decide⟩
  | number number =>
      rcases exists_number_chars number with ⟨c, tail, text, starts⟩
      exact ⟨c, tail, text, starts_of_startsNumber starts⟩
  | string value => exact ⟨'"', _, rfl, by decide⟩
  | array items => exact ⟨'[', _, rfl, by decide⟩
  | object members => exact ⟨'{', _, rfl, by decide⟩

/-- Nothing is left out in front of a character that is no blank. -/
theorem skipBlanks_cons {c : Char} (noBlank : Reader.isBlank c = false) (rest : List Char) :
    skipBlanks (c :: rest) = c :: rest := by
  simp [skipBlanks, noBlank]

/-- What is read first and what is read behind it make one list. -/
theorem toOption_cons {α : Type} {first : Attempt (Parsed α)}
    (others : List Char → Attempt (Parsed (List α))) {value : Option α}
    {values : Option (List α)} {middle rest : List Char}
    (one : first.toOption = value.map fun value => (value, middle))
    (more : (others middle).toOption = values.map fun values => (values, rest)) :
    (do
      let (value, onward) ← first
      let (values, onward) ← others onward
      return (value :: values, onward)).toOption =
    (do
      let value ← value
      let values ← values
      return value :: values).map fun values => (values, rest) := by
  rw [toOption_bind, one]
  cases value with
  | none => rfl
  | some value =>
      simp only [Option.map_some, Option.bind_some, toOption_bind, more]
      cases values <;> rfl

/-! ## Arrays -/

/-- The characters of items behind the first one. -/
def charsMoreItems (more : List Json) : List Char := more.flatMap fun item => ',' :: item.chars

theorem charsItems_cons (item : Json) (more : List Json) :
    charsItems (item :: more) = item.chars ++ charsMoreItems more := by
  induction more generalizing item with
  | nil => simp [charsItems, charsMoreItems]
  | cons next rest ih =>
      rw [charsItems, ih next]
      simp [charsMoreItems]

theorem delimited_charsMoreItems (more : List Json) (rest : List Char) :
    Delimited (charsMoreItems more ++ ']' :: rest) := by
  cases more with
  | nil => exact delimited_cons (.inr (.inl rfl)) _
  | cons next others => exact delimited_cons (.inl rfl) _

section Items

variable {α : Type} {read : List Char → Attempt (Parsed α)} {spec : Json → Option α}

/-- Whether a reader gives for the text of a value what a function tells. -/
def Follows (read : List Char → Attempt (Parsed α)) (value : Json) (result : Option α) : Prop :=
  ∀ rest, Delimited rest →
    (read (value.chars ++ rest)).toOption = result.map fun read => (read, rest)

/-- Items behind the first one are read one by one. -/
theorem moreItems_toOption {more : List Json} (each : ∀ item ∈ more, Follows read item (spec item))
    {steps : Nat} (enough : more.length < steps) (rest : List Char) :
    (moreItems read steps (charsMoreItems more ++ ']' :: rest)).toOption =
      (more.mapM spec).map fun values => (values, rest) := by
  induction more generalizing steps with
  | nil =>
      obtain ⟨fewer, rfl⟩ := Nat.exists_eq_add_one_of_ne_zero (Nat.ne_zero_of_lt enough)
      rfl
  | cons item more ih =>
      rw [List.forall_mem_cons] at each
      obtain ⟨fewer, rfl⟩ := Nat.exists_eq_add_one_of_ne_zero (Nat.ne_zero_of_lt enough)
      rcases exists_chars_eq_cons item with ⟨c, tail, text, noBlank, notBracket, _⟩
      have first := each.1 _ (delimited_charsMoreItems more rest)
      rw [text, List.cons_append] at first
      have behind : charsMoreItems (item :: more) ++ ']' :: rest =
          ',' :: c :: (tail ++ (charsMoreItems more ++ ']' :: rest)) := by
        simp [charsMoreItems, text]
      rw [behind, moreItems, skipBlanks_cons (by decide)]
      simp only [Char.reduceEq, if_false, if_true, skipBlanks_cons noBlank]
      split
      · contradiction
      · rename_i equal
        exact absurd (List.cons.inj equal).1 notBracket
      rw [List.mapM_cons]
      exact toOption_cons (moreItems read fewer) first
        (ih each.2 (Nat.lt_of_succ_lt_succ enough))

/-- The items of an array are read one by one. -/
theorem items_toOption {values : List Json} (each : ∀ item ∈ values, Follows read item (spec item))
    (rest : List Char) :
    (items read (charsItems values ++ ']' :: rest)).toOption =
      (values.mapM spec).map fun values => (values, rest) := by
  cases values with
  | nil => rfl
  | cons item more =>
      rw [List.forall_mem_cons] at each
      rcases exists_chars_eq_cons item with ⟨c, tail, text, noBlank, notBracket, _⟩
      have first := each.1 _ (delimited_charsMoreItems more rest)
      have enough : more.length < (charsMoreItems more ++ ']' :: rest).length + 1 := by
        have long : more.length ≤ (charsMoreItems more).length :=
          length_le_length_flatMap (fun _ => List.cons_ne_nil _ _) more
        simp only [List.length_append, List.length_cons]
        omega
      rw [charsItems_cons, List.append_assoc, items]
      rw [text, List.cons_append] at first ⊢
      rw [skipBlanks_cons noBlank]
      split
      · contradiction
      · rename_i equal
        exact absurd (List.cons.inj equal).1 notBracket
      rw [List.mapM_cons]
      exact toOption_cons (fun onward => moreItems read (onward.length + 1) onward) first
        (moreItems_toOption each.2 enough rest)

end Items

/-! ## Objects -/

/-- The characters of a member. -/
def charsMember (entry : String × Json) : List Char := quote entry.1 ++ ':' :: entry.2.chars

/-- The characters of members behind the first one. -/
def charsMoreMembers (more : List (String × Json)) : List Char :=
  more.flatMap fun entry => ',' :: charsMember entry

theorem charsMember_append (entry : String × Json) (rest : List Char) :
    charsMember entry ++ rest =
      '"' :: (entry.1.toList.flatMap escapeChar ++ '"' :: ':' :: (entry.2.chars ++ rest)) := by
  simp [charsMember, quote]

theorem charsMembers_cons (entry : String × Json) (more : List (String × Json)) :
    charsMembers (entry :: more) = charsMember entry ++ charsMoreMembers more := by
  induction more generalizing entry with
  | nil => simp [charsMembers, charsMember, charsMoreMembers]
  | cons next rest ih =>
      rw [charsMembers, ih next]
      simp [charsMember, charsMoreMembers]

theorem delimited_charsMoreMembers (more : List (String × Json)) (rest : List Char) :
    Delimited (charsMoreMembers more ++ '}' :: rest) := by
  cases more with
  | nil => exact delimited_cons (.inr (.inr rfl)) _
  | cons next others => exact delimited_cons (.inl rfl) _

section Members

variable {α : Type} {read : String → List Char → Attempt (Parsed α)}
  {spec : String × Json → Option α}

/-- What a member is read as when its value is read as told. -/
def namedSpec (spec : String × Json → Option α) (entry : String × Json) : Option (String × α) :=
  (spec entry).map fun value => (entry.1, value)

/-- A member is read by its name. -/
theorem namedMember_toOption {entry : String × Json}
    (follows : Follows (read entry.1) entry.2 (spec entry)) {rest : List Char}
    (delimited : Delimited rest) :
    (namedMember .keep read (entry.1.toList.flatMap escapeChar ++
        '"' :: ':' :: (entry.2.chars ++ rest))).toOption =
      (namedSpec spec entry).map fun entry => (entry, rest) := by
  have run : namedMember .keep read (entry.1.toList.flatMap escapeChar ++
      '"' :: ':' :: (entry.2.chars ++ rest)) =
        (read entry.1 (entry.2.chars ++ rest) >>= fun parsed =>
          .ok ((entry.1, parsed.1), parsed.2)) := by
    rw [namedMember, string_quote]
    rfl
  rw [run, toOption_bind, follows rest delimited, namedSpec]
  cases spec entry <;> rfl

/-- Members behind the first one are read one by one. -/
theorem moreMembers_toOption {more : List (String × Json)}
    (each : ∀ entry ∈ more, Follows (read entry.1) entry.2 (spec entry)) {steps : Nat}
    (enough : more.length < steps) (rest : List Char) :
    (moreMembers .keep read steps (charsMoreMembers more ++ '}' :: rest)).toOption =
      (more.mapM (namedSpec spec)).map fun entries => (entries, rest) := by
  induction more generalizing steps with
  | nil =>
      obtain ⟨fewer, rfl⟩ := Nat.exists_eq_add_one_of_ne_zero (Nat.ne_zero_of_lt enough)
      rfl
  | cons entry more ih =>
      rw [List.forall_mem_cons] at each
      obtain ⟨fewer, rfl⟩ := Nat.exists_eq_add_one_of_ne_zero (Nat.ne_zero_of_lt enough)
      have first := namedMember_toOption each.1 (delimited_charsMoreMembers more rest)
      have behind : charsMoreMembers (entry :: more) ++ '}' :: rest =
          ',' :: (charsMember entry ++ (charsMoreMembers more ++ '}' :: rest)) := by
        simp [charsMoreMembers]
      rw [behind, charsMember_append, moreMembers, skipBlanks_cons (by decide)]
      have noBlank : Reader.isBlank '"' = false := rfl
      simp only [Char.reduceEq, if_false, if_true, skipBlanks_cons noBlank]
      rw [List.mapM_cons]
      exact toOption_cons (moreMembers .keep read fewer) first
        (ih each.2 (Nat.lt_of_succ_lt_succ enough))

/-- The members of an object are read one by one. -/
theorem members_toOption {entries : List (String × Json)}
    (each : ∀ entry ∈ entries, Follows (read entry.1) entry.2 (spec entry)) (rest : List Char) :
    (members .keep read (charsMembers entries ++ '}' :: rest)).toOption =
      (entries.mapM (namedSpec spec)).map fun entries => (entries, rest) := by
  cases entries with
  | nil => rfl
  | cons entry more =>
      rw [List.forall_mem_cons] at each
      have first := namedMember_toOption each.1 (delimited_charsMoreMembers more rest)
      have enough : more.length < (charsMoreMembers more ++ '}' :: rest).length + 1 := by
        have long : more.length ≤ (charsMoreMembers more).length :=
          length_le_length_flatMap (fun _ => List.cons_ne_nil _ _) more
        simp only [List.length_append, List.length_cons]
        omega
      rw [charsMembers_cons, List.append_assoc, charsMember_append, members,
        skipBlanks_cons (by decide)]
      rw [List.mapM_cons]
      exact toOption_cons (fun onward => moreMembers .keep read (onward.length + 1) onward) first
        (moreMembers_toOption each.2 enough rest)

end Members

/-! ## Values -/

mutual

/-- What the text of a value is read as with so many levels. -/
def reread? : (levels : Nat) → Json → Option Json
  | _, .null => some .null
  | _, .bool truth => some (.bool truth)
  | _, .number value => value.reread?.map .number
  | _, .string text => some (.string text)
  | 0, .array _ => none
  | levels + 1, .array items => (rereadItems? levels items).map .array
  | 0, .object _ => none
  | levels + 1, .object members => (rereadMembers? levels members).map .object
termination_by structural _ value => value

/-- What the texts of items are read as. -/
def rereadItems? : (levels : Nat) → List Json → Option (List Json)
  | _, [] => some []
  | levels, item :: rest => do
      let value ← reread? levels item
      let values ← rereadItems? levels rest
      return value :: values
termination_by structural _ items => items

/-- What the texts of the values of members are read as. -/
def rereadMembers? : (levels : Nat) → List (String × Json) → Option (List (String × Json))
  | _, [] => some []
  | levels, (name, value) :: rest => do
      let value ← reread? levels value
      let values ← rereadMembers? levels rest
      return (name, value) :: values
termination_by structural _ members => members

end

theorem rereadItems?_eq_mapM (levels : Nat) (items : List Json) :
    rereadItems? levels items = items.mapM (reread? levels) := by
  induction items with
  | nil => rfl
  | cons item rest ih => rw [rereadItems?, ih, List.mapM_cons]

theorem rereadMembers?_eq_mapM (levels : Nat) (members : List (String × Json)) :
    rereadMembers? levels members =
      members.mapM (namedSpec fun entry => reread? levels entry.2) := by
  induction members with
  | nil => rfl
  | cons entry rest ih =>
      rcases entry with ⟨name, value⟩
      rw [rereadMembers?, ih, List.mapM_cons, namedSpec]
      cases reread? levels value <;> rfl

/-- Members are read if the first one and the others are. -/
theorem mapM_namedSpec_cons_eq_some_iff {spec : String × Json → Option Json}
    {entry : String × Json} {rest entries : List (String × Json)} :
    (entry :: rest).mapM (namedSpec spec) = some entries ↔
      ∃ value values, spec entry = some value ∧ rest.mapM (namedSpec spec) = some values ∧
        entries = (entry.1, value) :: values := by
  rw [List.mapM_cons, namedSpec]
  cases spec entry with
  | none => simp
  | some value => cases rest.mapM (namedSpec spec) <;> simp [eq_comm]

theorem names_of_mapM_namedSpec {spec : String × Json → Option Json}
    {members entries : List (String × Json)} (read : members.mapM (namedSpec spec) = some entries) :
    Fields.names entries = Fields.names members := by
  induction members generalizing entries with
  | nil =>
      cases read
      rfl
  | cons entry rest ih =>
      rcases mapM_namedSpec_cons_eq_some_iff.mp read with ⟨value, values, _, others, rfl⟩
      rw [Fields.names_cons, Fields.names_cons, ih others]

section Reading

variable {whole : String → Attempt Json}

/-- What starts as no array and no object is read as a scalar, however many levels there
are. -/
theorem valueWith_cons {c : Char} (onlyScalar : Starts c ∧ c ≠ '[' ∧ c ≠ '{') (levels : Nat)
    (rest : List Char) :
    valueWith whole .keep levels (c :: rest) = scalar .keep (c :: rest) := by
  rcases onlyScalar with ⟨starts, noArray, noObject⟩
  cases levels
  all_goals
    rw [valueWith, skipBlanks_cons starts.1]
    split
    · rename_i equal
      exact absurd (List.cons.inj equal).1 noArray
    · rename_i equal
      exact absurd (List.cons.inj equal).1 noObject
    · rfl

theorem embedding?_charsMembers {members : List (String × Json)} (rest : List Char) :
    embedding? (charsMembers members ++ '}' :: rest) = none ↔ ¬ Embeds members := by
  cases members with
  | nil => simp [Embeds, charsMembers, embedding?, skipBlanks, Reader.isBlank]
  | cons entry more =>
      rw [charsMembers_cons, List.append_assoc, charsMember_append, embedding?,
        skipBlanks_cons (by decide)]
      simp [string_quote, Embeds]

/-- Only a string is taken for an embedded text. -/
theorem embeddedText_chars (value : Json) (rest : List Char) :
    (embeddedText (value.chars ++ rest)).toOption =
      value.string?.map fun text => (text, rest) := by
  have noText {c : Char} {tail : List Char} (text : value.chars = c :: tail) (starts : Starts c)
      (noString : c ≠ '"') : (embeddedText (value.chars ++ rest)).toOption = none := by
    rw [text, List.cons_append, embeddedText, skipBlanks_cons starts.1]
    split
    · rename_i equal
      exact absurd (List.cons.inj equal).1 noString
    · rfl
    · rfl
    · rw [toOption_bind]
      cases (scalar .keep (c :: (tail ++ rest))).toOption <;> rfl
  cases value with
  | null => exact noText rfl (by decide) (by decide)
  | bool truth =>
      cases truth <;> exact noText rfl (by decide) (by decide)
  | number number =>
      rcases exists_number_chars number with ⟨c, tail, text, starts⟩
      exact noText text (starts_of_startsNumber starts) (ne_of_startsNumber starts rfl)
  | string text =>
      rw [chars, quote_append, embeddedText, skipBlanks_cons (by decide)]
      simp only [string_quote]
      rfl
  | array items => exact noText rfl (by decide) (by decide)
  | object members => exact noText rfl (by decide) (by decide)

/-- An object with more than the member that would embed a text is not read. -/
theorem valueWith_embedding {first second : String × Json} {more : List (String × Json)}
    (embeds : first.1 = embeddingName) (levels : Nat) (rest : List Char) :
    (valueWith whole .keep levels
      (chars (.object (first :: second :: more)) ++ rest)).toOption = none := by
  obtain ⟨onward, behind⟩ : ∃ onward, chars (.object (first :: second :: more)) ++ rest =
      '{' :: '"' :: (first.1.toList.flatMap escapeChar ++ '"' :: ':' ::
        (first.2.chars ++ ',' :: onward)) :=
    ⟨charsMembers (second :: more) ++ '}' :: rest, by
      simp [chars, charsMembers_cons, charsMember, charsMoreMembers, quote]⟩
  rw [behind]
  cases levels with
  | zero => rfl
  | succ levels =>
      have embedding : embedding? ('"' :: (first.1.toList.flatMap escapeChar ++ '"' :: ':' ::
          (first.2.chars ++ ',' :: onward))) = some (':' :: (first.2.chars ++ ',' :: onward)) := by
        rw [embedding?, skipBlanks_cons (by decide)]
        simp only [string_quote, embeds, if_true]
      have colon_eq (rest : List Char) : colon (':' :: rest) = .ok rest := rfl
      rw [valueWith, skipBlanks_cons (by decide)]
      simp only [embedding, embedded]
      rw [colon_eq, toOption_bind, Except.toOption, Option.bind_some, toOption_bind,
        embeddedText_chars]
      cases first.2.string? with
      | none => rfl
      | some text =>
          -- The comma behind the text stands where the object has to end.
          have refused : (lastBrace (',' :: onward)).toOption = none := rfl
          simp only [Option.map_some, Option.bind_some, toOption_bind, refused, Option.bind_none]
          cases ((whole text).mapError (·.within text)).toOption <;> rfl

theorem valueWith_number (number : Number) (levels : Nat) :
    Follows (valueWith whole .keep levels) (.number number) (reread? levels (.number number)) := by
  intro rest delimited
  rcases exists_number_chars number with ⟨c, tail, text, starts⟩
  have scalar_eq := number.scalar_chars delimited
  rw [text, List.cons_append] at scalar_eq
  have onlyScalar : Starts c ∧ c ≠ '[' ∧ c ≠ '{' :=
    ⟨starts_of_startsNumber starts, ne_of_startsNumber starts rfl,
      ne_of_startsNumber starts rfl⟩
  rw [chars, text, List.cons_append, valueWith_cons onlyScalar, scalar_eq]
  cases levels <;> (rw [reread?]; cases number.reread? <;> rfl)

theorem scalar_quote (text : String) (rest : List Char) :
    scalar .keep (quote text ++ rest) = .ok (.string text, rest) := by
  have noDigit : Decimal.isDigit '"' = false := rfl
  rw [quote_append, scalar]
  simp only [Char.reduceEq, noDigit, Bool.false_eq_true, if_false, if_true, string_quote]
  rfl

theorem valueWith_array {items : List Json} {levels : Nat}
    (each : ∀ item ∈ items, Follows (valueWith whole .keep levels) item (item.reread? levels)) :
    Follows (valueWith whole .keep (levels + 1)) (.array items)
      (reread? (levels + 1) (.array items)) := by
  intro rest _
  have behind : chars (.array items) ++ rest = '[' :: (charsItems items ++ ']' :: rest) := by
    simp [chars]
  rw [behind, valueWith, skipBlanks_cons (by decide)]
  simp only
  rw [toOption_bind, items_toOption each, reread?, rereadItems?_eq_mapM]
  cases items.mapM (reread? levels) <;> rfl

/-- An object whose members embed no text is read member by member. -/
theorem valueWith_object {members : List (String × Json)}
    (distinct : (Fields.names members).Nodup) (noText : ¬ Embeds members) {levels : Nat}
    (each : ∀ entry ∈ members,
      Follows (valueWith whole .keep levels) entry.2 (entry.2.reread? levels)) :
    Follows (valueWith whole .keep (levels + 1)) (.object members)
      (reread? (levels + 1) (.object members)) := by
  intro rest _
  have behind : chars (.object members) ++ rest = '{' :: (charsMembers members ++ '}' :: rest) := by
    simp [chars]
  have noEmbedding := (embedding?_charsMembers rest).mpr noText
  rw [behind, valueWith, skipBlanks_cons (by decide)]
  simp only [noEmbedding]
  rw [toOption_bind, members_toOption each, reread?, rereadMembers?_eq_mapM]
  cases read : members.mapM (namedSpec fun entry => entry.2.reread? levels) with
  | none => rfl
  | some entries =>
      have same : Fields.putAll [] entries = entries :=
        Fields.putAll_nil (by rwa [names_of_mapM_namedSpec read])
      simp only [Option.map_some, Option.bind_some, same]
      rfl

/-- The text of a plain value is read as told, whatever follows it. -/
theorem follows_reread? {value : Json} (plain : value.Plain) (levels : Nat) :
    Follows (valueWith whole .keep levels) value (value.reread? levels) := by
  -- The levels go down together with the value.
  induction value using induction_values generalizing levels with
  | null =>
      intro rest _
      rw [chars, List.cons_append, valueWith_cons (by decide)]
      cases levels <;> rfl
  | bool truth =>
      intro rest _
      cases truth
      all_goals
        rw [chars, List.cons_append, valueWith_cons (by decide)]
        cases levels <;> rfl
  | number number =>
      exact valueWith_number number levels
  | string text =>
      intro rest _
      have scalar_eq := scalar_quote text rest
      rw [quote_append] at scalar_eq
      rw [chars, quote_append, valueWith_cons (by decide), scalar_eq]
      cases levels <;> rfl
  | array items ih =>
      rw [Plain, plainItems_iff] at plain
      cases levels with
      | zero =>
          intro rest _
          rfl
      | succ levels =>
          exact valueWith_array fun item member => ih item member (plain item member) levels
  | object members ih =>
      rw [Plain, plainMembers_iff] at plain
      rcases plain with ⟨distinct, noText, plain⟩
      cases levels with
      | zero =>
          intro rest _
          rfl
      | succ levels =>
          exact valueWith_object distinct noText fun entry member =>
            ih entry member (plain entry member) levels

end Reading

end Folio.Json
