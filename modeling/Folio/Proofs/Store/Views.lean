import Folio.Proofs.Json.Pointer
import Folio.Proofs.Store.Reading

/-!
# Views found by name

A design document lists its views under their names.  The store does not ask for the
member of that name: it splices the name into a pointer.  The two ways of looking differ
for a name that the pointer does not read as that name, and where the views are an array,
whose items a pointer numbers.
-/

namespace Folio

open Json

variable {design : Json} {view : String}

/-- The text that a design document gives for a view, found by the name of the view. -/
def Json.startNamed? (design : Json) (view : String) : Option String :=
  (design.member? "views").bind fun views =>
    (views.member? view).bind fun entry => entry.stringMember? "prefix"

/-- Whether the views of a design document are an array that gives a text for a view whose
name is an index. -/
def Json.NumbersView (design : Json) (view : String) : Prop :=
  ∃ items index entry start, design.member? "views" = some (.array items) ∧
    indexOfStep? view.toList = some index ∧ items[index]? = some entry ∧
    entry.stringMember? "prefix" = some start

/-! ## The pointer of a view -/

/-- The pointer goes into the views, then where the name leads, then to the text. -/
theorem Json.viewStart?_eq (design : Json) (view : String) :
    design.viewStart? view = (design.member? "views").bind fun views =>
      (views.walk? (pointerSteps view.toList)).bind fun entry => entry.stringMember? "prefix" := by
  have steps : pointerSteps ("views/".toList ++ view.toList ++ "/prefix".toList) =
      "views" :: (pointerSteps view.toList ++ ["prefix"]) := by
    have spliced : "views/".toList ++ view.toList ++ "/prefix".toList =
        "views".toList ++ '/' :: (view.toList ++ '/' :: "prefix".toList) := by
      rw [List.append_assoc]
      rfl
    have front : pointerSteps "views".toList = ["views"] := by decide
    have back : pointerSteps "prefix".toList = ["prefix"] := by decide
    rw [spliced, pointerSteps_append, pointerSteps_append, front, back]
    rfl
  have views : stepInto? design "views" = design.member? "views" :=
    stepInto?_of_not_index (by decide)
  have start (entry : Json) : stepInto? entry "prefix" = entry.member? "prefix" :=
    stepInto?_of_not_index (by decide)
  simp only [viewStart?, steps, walk?, walk?_append, views, start, Option.bind_assoc,
    Option.bind_some, stringMember?]

theorem Json.viewStart?_eq_bind (stands : StandsForItself view) :
    design.viewStart? view = (design.member? "views").bind fun views =>
      (views.stepInto? view).bind fun entry => entry.stringMember? "prefix" := by
  simp only [viewStart?_eq, stands.pointerSteps_eq, walk?, Option.bind_fun_some]

theorem Json.viewStart?_eq_startNamed? (stands : StandsForItself view)
    (named : ∀ items, design.member? "views" ≠ some (.array items)) :
    design.viewStart? view = design.startNamed? view := by
  rw [viewStart?_eq_bind stands, startNamed?]
  cases found : design.member? "views" with
  | none => rfl
  | some views =>
      cases views with
      | array items => exact absurd found (named items)
      | _ => rfl

theorem Json.numbersView_iff {items : List Json} (stands : StandsForItself view)
    (numbered : design.member? "views" = some (.array items)) :
    design.NumbersView view ↔ ∃ start, design.viewStart? view = some start := by
  simp only [viewStart?_eq_bind stands, numbered, NumbersView, Option.bind_some, stepInto?,
    Option.bind_eq_some_iff, Option.some.injEq, Json.array.injEq]
  constructor
  · rintro ⟨_, index, entry, start, rfl, index_eq, entry_eq, start_eq⟩
    exact ⟨start, entry, ⟨index, index_eq, entry_eq⟩, start_eq⟩
  · rintro ⟨start, entry, ⟨index, index_eq, entry_eq⟩, start_eq⟩
    exact ⟨items, index, entry, start, rfl, index_eq, entry_eq, start_eq⟩

/-! ## Answers -/

namespace Store

/-- How a view is answered where it is found by its name. -/
def answerNamed (store : Store) (design : Json) (collection view : String)
    (options : ViewOptions) : Except StoreError (List ViewRow) :=
  match design.startNamed? view with
  | some start => .ok (store.rowsFrom start options)
  | none => .error (.notFound (designKey collection ++ "/" ++ view))

variable {store : Store} {collection : String} {options : ViewOptions}

theorem view_eq_answerNamed (alive : store.live? (designKey collection) = some design)
    (same : design.viewStart? view = design.startNamed? view) :
    store.view collection view options = store.answerNamed design collection view options := by
  simp only [Store.view, answerNamed, alive, same]
  cases design.startNamed? view <;> rfl

theorem view_ne_answerNamed (alive : store.live? (designKey collection) = some design)
    (differ : (design.viewStart? view).isSome ≠ (design.startNamed? view).isSome) :
    store.view collection view options ≠ store.answerNamed design collection view options := by
  simp only [Store.view, answerNamed, alive]
  cases found : design.viewStart? view <;> cases named : design.startNamed? view <;>
    simp [found, named] at differ ⊢

/-- A design document with one view, which selects all keys. -/
def declaring (view : String) : Json :=
  .object [(idMember, .string (designKey "")),
    ("views", .object [(view, .object [("prefix", .string "")])])]

theorem startNamed?_declaring (view : String) : (declaring view).startNamed? view = some "" := by
  have entry : Fields.get? [(view, Json.object [("prefix", .string "")])] view =
      some (.object [("prefix", .string "")]) := by
    simp [Fields.get?]
  change (Fields.get? [(view, Json.object [("prefix", .string "")])] view).bind
    (fun entry => entry.stringMember? "prefix") = some ""
  rw [entry]
  rfl

theorem viewStart?_declaring (twisted : ¬ StandsForItself view) :
    (declaring view).viewStart? view = none := by
  rcases exists_pointerSteps_eq_cons twisted with ⟨step, rest, steps, different⟩
  have missed : Fields.get? [(view, Json.object [("prefix", .string "")])] step = none := by
    simp [Fields.get?, different.symm]
  rw [viewStart?_eq, steps]
  change (((Fields.get? [(view, Json.object [("prefix", .string "")])] step).bind
    fun inner => inner.walk? rest).bind fun entry => entry.stringMember? "prefix") = none
  rw [missed]
  rfl

theorem view_declaring_ne_answerNamed (twisted : ¬ StandsForItself view)
    (alive : store.live? (designKey collection) = some (declaring view)) :
    store.view collection view options ≠
      store.answerNamed (declaring view) collection view options := by
  apply view_ne_answerNamed alive
  rw [viewStart?_declaring twisted, startNamed?_declaring]
  decide

/-- A name that the pointer reads as itself is looked up as a name, unless the views are an
array in which it is an index. -/
theorem view_eq_answerNamed_iff (stands : StandsForItself view)
    (alive : store.live? (designKey collection) = some design) :
    store.view collection view options = store.answerNamed design collection view options ↔
      ¬ design.NumbersView view := by
  by_cases numbered : ∃ items, design.member? "views" = some (.array items)
  · rcases numbered with ⟨items, views⟩
    have unnamed : design.startNamed? view = none := by
      rw [startNamed?, views]
      rfl
    rw [numbersView_iff stands views]
    cases start : design.viewStart? view with
    | none =>
        have same : design.viewStart? view = design.startNamed? view := start.trans unnamed.symm
        simpa using view_eq_answerNamed alive same
    | some text =>
        have differ : (design.viewStart? view).isSome ≠ (design.startNamed? view).isSome := by
          simp [start, unnamed]
        simpa using view_ne_answerNamed alive differ
  · have named : ∀ items, design.member? "views" ≠ some (.array items) :=
      not_exists.mp numbered
    have unnumbered : ¬ design.NumbersView view := by
      rintro ⟨items, _, _, _, views, _⟩
      exact named items views
    simpa [unnumbered] using view_eq_answerNamed alive (viewStart?_eq_startNamed? stands named)

/-- A view is answered by its name, with the rows for the text that the design document
gives for that name and otherwise with the complaint that there is no such view, in every
store that can be reached and for every design document whose views are no array, exactly
when the pointer reads the name as itself.  For such a name any design document is answered
by it, unless its views are an array and the name is the index of an item that gives a text.
-/
theorem view_by_name_iff (view : String) :
    (StandsForItself view ↔
      ∀ (store : Store) (design : Json) (collection : String) (options : ViewOptions),
        store.Reached → store.live? (designKey collection) = some design →
        (∀ items, design.member? "views" ≠ some (.array items)) →
          store.view collection view options =
            store.answerNamed design collection view options) ∧
    ∀ (store : Store) (design : Json) (collection : String) (options : ViewOptions),
      StandsForItself view → store.live? (designKey collection) = some design →
        (store.view collection view options = store.answerNamed design collection view options ↔
          ¬ design.NumbersView view) := by
  constructor
  · constructor
    · intro stands store design collection options _ alive named
      exact view_eq_answerNamed alive (viewStart?_eq_startNamed? stands named)
    · intro always
      by_contra twisted
      have alive : (empty.restore (declaring view)).live? (designKey "") =
          some (declaring view) :=
        live?_place_self empty (designKey "") rfl
      have named : ∀ items, (declaring view).member? "views" ≠ some (.array items) := by
        intro items
        nofun
      exact view_declaring_ne_answerNamed twisted alive
        (always _ _ "" {} (Reached.empty.restore _) alive named)
  · intro store design collection options stands alive
    exact view_eq_answerNamed_iff stands alive

/-- Of two views of a design document the one that it lists is answered, the other refused. -/
theorem view_by_name_cattery :
    StandsForItself "findAll" ∧ StandsForItself "all" ∧
      cattery.view "cat" "findAll" {} =
        .ok [⟨"cat-a", "cat-a", .object [(idMember, .string "cat-a")], none⟩] ∧
      cattery.view "cat" "all" {} = .error (.notFound "_design/cat/all") := by
  have listed : StandsForItself "findAll" := by decide
  have unlisted : StandsForItself "all" := by decide
  have reached : cattery.Reached := ((Reached.empty.restore _).restore _).restore _
  have named : ∀ items, Json.member? (.object [(idMember, .string "_design/cat"),
      ("views", .object [("findAll", .object [("prefix", .string "cat-")])])]) "views" ≠
        some (.array items) := by
    intro items
    nofun
  refine ⟨listed, unlisted, ?_, ?_⟩
  · exact (view_by_name_iff "findAll").1.mp listed cattery _ "cat" {} reached rfl named
  · exact (view_by_name_iff "all").1.mp unlisted cattery _ "cat" {} reached rfl named

/-- A view whose name holds a slash is refused although its design document lists it. -/
theorem slashed_view_refused :
    ∃ (store : Store) (design : Json), store.Reached ∧
      store.live? (designKey "c") = some design ∧
      design.startNamed? "a/b" = some "x" ∧
      store.view "c" "a/b" {} = .error (.notFound "_design/c/a/b") := by
  refine ⟨empty.restore (.object [(idMember, .string "_design/c"),
    ("views", .object [("a/b", .object [("prefix", .string "x")])])]), _,
    Reached.empty.restore _, rfl, rfl, ?_⟩
  rfl

end Store

end Folio
