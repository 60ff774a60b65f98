import Folio.Gateway.Call
import Folio.Proofs.Text.Front
import Folio.Proofs.Text.Percent
import Folio.Proofs.Text.Pieces
import Mathlib.Data.List.TakeWhile

/-!
# Addresses of documents

The path of a document is its id behind the path of its collection, as it is.  A
request for that path is a request for that document exactly when nothing in the
two has a meaning of its own in a path: the routes, the query and the decoding of
percent signs all see the id only after it was written.
-/

namespace Folio

open Text

/-! ## Patterns -/

namespace Piece

/-- Whether a piece of a pattern captures. -/
def isCapture : Piece → Bool
  | .literal _ => false
  | .capture _ => true

theorem isCapture_ofChars_iff {chars : List Char} :
    (ofChars chars).isCapture = true ↔ ':' ∈ chars := by
  rw [← Decidable.not_iff_not, ← cutAt?_eq_none_iff, ofChars]
  cases cutAt? ':' chars <;> simp [isCapture]

theorem ofChars_of_not_mem {chars : List Char} (absent : ':' ∉ chars) :
    ofChars chars = .literal chars := by
  rw [ofChars, cutAt?_eq_none_iff.mpr absent]

theorem match?_capture_nil (chars : List Char) :
    (capture []).match? true chars = if chars = [] then none else some [chars] := by
  cases chars <;> rfl

/-- A piece leaves one capture or none. -/
theorem length_of_match? {piece : Piece} {isLast : Bool} {chars : List Char}
    {captured : List (List Char)} (matched : piece.match? isLast chars = some captured) :
    captured.length = if piece.isCapture then 1 else 0 := by
  cases piece with
  | literal expected =>
      simp only [match?, Option.ite_none_right_eq_some] at matched
      rw [← Option.some.inj matched.2]
      rfl
  | capture front =>
      simp only [match?] at matched
      split at matched
      · simp only [Option.ite_none_left_eq_some] at matched
        rw [← Option.some.inj matched.2]
        rfl
      · contradiction

end Piece

/-- A path that matches has as many pieces as the pattern, and every piece of the
pattern with a colon leaves a capture. -/
theorem length_of_matchPieces? {pattern : List Piece} {path captures : List (List Char)}
    (matched : matchPieces? pattern path = some captures) :
    path.length = pattern.length ∧ captures.length = pattern.countP Piece.isCapture := by
  induction pattern generalizing path captures with
  | nil =>
      cases path with
      | nil =>
          cases matched
          exact ⟨rfl, rfl⟩
      | cons _ _ => contradiction
  | cons piece pattern ih =>
      cases path with
      | nil => cases piece <;> contradiction
      | cons chars path =>
          simp only [matchPieces?, Option.bind_eq_bind, Option.bind_eq_some_iff] at matched
          rcases matched with ⟨captured, first, more, later, same⟩
          cases same
          rcases ih later with ⟨pieces, rest⟩
          constructor
          · rw [List.length_cons, List.length_cons, pieces]
          · rw [List.length_append, Piece.length_of_match? first, rest, List.countP_cons]
            omega

/-- Pieces without colons match themselves, and the last piece of all is captured
unless it is empty. -/
theorem matchPieces?_literals_iff {front path captures : List (List Char)} :
    matchPieces? (front.map .literal ++ [.capture []]) path = some captures ↔
      ∃ piece, piece ≠ [] ∧ path = front ++ [piece] ∧ captures = [piece] := by
  induction front generalizing path captures with
  | nil =>
      rcases path with _ | ⟨piece, _ | ⟨next, rest⟩⟩
      · simp [matchPieces?]
      · by_cases empty : piece = []
        · simp [matchPieces?, Piece.match?_capture_nil, empty]
        · simp [matchPieces?, Piece.match?_capture_nil, empty, eq_comm (a := captures)]
      · simp [matchPieces?]
  | cons first front ih =>
      rcases path with _ | ⟨piece, rest⟩
      · simp [matchPieces?]
      · by_cases same : piece = first
        · simp [matchPieces?, Piece.match?, same, ih]
        · simp [matchPieces?, Piece.match?, same]

/-! ## Routes -/

namespace Route

variable {name : String}

theorem toList_base (name : String) : (base name).toList = "/api/v1/".toList ++ name.toList :=
  String.toList_append

theorem toList_url (name id : String) :
    (url name id).toList = (base name).toList ++ '/' :: id.toList := by
  simp [url]

theorem url_injective {id other : String} (same : url name id = url name other) : id = other := by
  have chars := congrArg String.toList same
  rw [toList_url, toList_url, List.append_cancel_left_eq, List.cons.injEq] at chars
  exact String.toList_inj.mp chars.2

theorem pattern_eq_literals (absent : ':' ∉ name.toList) :
    pattern name = ((base name).toList.splitOn '/').map .literal := by
  refine List.map_congr_left fun piece inside => Piece.ofChars_of_not_mem fun member => ?_
  have inPath : ':' ∈ (base name).toList := by
    have kept := List.mem_flatten.mpr ⟨piece, inside, member⟩
    rw [flatten_splitOn] at kept
    exact (List.mem_filter.mp kept).1
  rw [toList_base, List.mem_append] at inPath
  exact inPath.elim (by decide) absent

theorem countP_pattern_pos (present : ':' ∈ name.toList) :
    0 < (pattern name).countP Piece.isCapture := by
  have inPath : ':' ∈ (base name).toList := by
    rw [toList_base]
    exact List.mem_append_right _ present
  rcases exists_mem_splitOn inPath (by decide : ':' ≠ '/') with ⟨piece, inside, member⟩
  rw [List.countP_pos_iff]
  exact ⟨_, List.mem_map_of_mem inside, Piece.isCapture_ofChars_iff.mpr member⟩

theorem base_append_ne {other : List Char} (different : other.take 2 ≠ ['/', 'a'])
    (name : String) (rest : List Char) : (base name).toList ++ rest ≠ other := by
  rintro rfl
  exact different (by rw [toList_base]; rfl)

/-- The pattern of the documents takes one capture from a path exactly when the capture stands
behind the path of the collection. -/
theorem matchPieces?_pattern_iff {path piece : List Char} :
    matchPieces? (pattern name ++ [.capture []]) (path.splitOn '/') = some [piece] ↔
      ':' ∉ name.toList ∧ piece ≠ [] ∧ '/' ∉ piece ∧
        path = (base name).toList ++ '/' :: piece := by
  constructor
  · intro matched
    have absent : ':' ∉ name.toList := by
      intro present
      have captures := (length_of_matchPieces? matched).2
      have more := countP_pattern_pos present
      simp only [List.length_singleton, List.countP_append, List.countP_singleton,
        Piece.isCapture, if_true] at captures
      omega
    rw [pattern_eq_literals absent, matchPieces?_literals_iff] at matched
    rcases matched with ⟨captured, nonempty, pieces, same⟩
    cases same
    rcases splitOn_eq_append_singleton_iff.mp pieces with ⟨path, single⟩
    exact ⟨absent, nonempty, single, path⟩
  · rintro ⟨absent, nonempty, single, located⟩
    rw [pattern_eq_literals absent, matchPieces?_literals_iff]
    exact ⟨piece, nonempty, splitOn_eq_append_singleton_iff.mpr ⟨located, single⟩, rfl⟩

theorem isSome_matchPieces?_pattern {piece : List Char} (single : '/' ∉ piece) :
    (matchPieces? (pattern name)
      (((base name).toList ++ '/' :: piece).splitOn '/')).isSome = false := by
  rw [Option.isSome_eq_false_iff, Option.isNone_iff_eq_none, Option.eq_none_iff_forall_ne_some]
  intro captures matched
  have lengths := (length_of_matchPieces? matched).1
  rw [splitOn_eq_append_singleton_iff.mpr ⟨rfl, single⟩, pattern, List.length_append,
    List.length_map, List.length_singleton] at lengths
  omega

/-- A path leads to a document with one capture exactly when the capture stands behind
the path of the collection. -/
theorem find?_eq_document_singleton_iff {path piece : List Char} :
    find? name path = some (.document [piece]) ↔
      ':' ∉ name.toList ∧ piece ≠ [] ∧ '/' ∉ piece ∧
        path = (base name).toList ++ '/' :: piece := by
  rw [← matchPieces?_pattern_iff]
  constructor
  · intro found
    simp only [find?] at found
    split at found
    · cases found
    split at found
    · cases found
    split at found
    · cases found
    simpa using found
  · intro matched
    rcases matchPieces?_pattern_iff.mp matched with ⟨_, _, single, rfl⟩
    have notHealth : (base name).toList ++ '/' :: piece ≠ "/health".toList :=
      base_append_ne (by decide) name _
    have notMetrics : (base name).toList ++ '/' :: piece ≠ "/metrics".toList :=
      base_append_ne (by decide) name _
    simp only [find?, if_neg notHealth, if_neg notMetrics, isSome_matchPieces?_pattern single,
      matched, Bool.false_eq_true, if_false, Option.map_some]

/-! ## Addresses -/

/-- Whether a document can be asked for under its path as it is: the name of the
collection has no piece that captures, nothing ends the path early, and the id is a
piece of its own in which nothing is escaped.  A path with blanks, control characters, angle
brackets or backticks in it may be addressable, but no client can put it into a request. -/
structure Addressable (name id : String) : Prop where
  noCapture : ':' ∉ name.toList
  noQuery : '?' ∉ (url name id).toList
  noFragment : '#' ∉ (url name id).toList
  single : '/' ∉ id.toList
  nonempty : id ≠ ""
  unescaped : ¬ Escaped (bytesOf id)

theorem captured?_eq_some_iff {piece : List Char} {id : String} :
    captured? piece = some id ↔ percentDecode (bytesOf (String.ofList piece)) = bytesOf id := by
  rw [captured?]
  constructor
  · intro holds
    exact (bytesOf_of_ofBytes? holds).symm
  · intro decoded
    rw [decoded, ofBytes?_bytesOf]

/-- Decoding does not lengthen a text, so only the whole of an id decodes to the id among its
beginnings. -/
theorem eq_of_captured?_of_prefix {piece : List Char} {id : String}
    (front : piece <+: id.toList) (captured : captured? piece = some id) :
    id.toList = piece := by
  rcases front with ⟨rest, whole⟩
  have parts : id = String.ofList piece ++ String.ofList rest := by
    rw [← String.ofList_append, whole, String.ofList_toList]
  have decoded := captured?_eq_some_iff.mp captured
  rw [parts] at decoded
  rw [parts, eq_of_percentDecode decoded, String.append_empty, String.toList_ofList]

end Route

namespace Call

theorem idOf_eq_ok_iff {captures : List (List Char)} {id : String} :
    idOf captures = .ok id ↔ ∃ piece, captures = [piece] ∧ Route.captured? piece = some id := by
  rcases captures with _ | ⟨piece, _ | ⟨next, rest⟩⟩
  · simp [idOf]
  · cases captured : Route.captured? piece <;> simp [idOf, captured]
  · cases first : Route.captured? piece <;> cases second : Route.captured? next <;>
      cases others : rest.mapM Route.captured? <;>
        simp [idOf, List.mapM_cons, first, second, others]

end Call

namespace Request

variable {name id : String} {contentType : Option String} {body : Body}

theorem withoutHost_url (name id : String) :
    withoutHost (Route.url name id).toList = (Route.url name id).toList := by
  rw [Route.toList_url, Route.toList_base]
  rfl

theorem path_url : (Request.mk .get (Route.url name id) contentType body).path =
    (Route.url name id).toList.takeWhile fun c => decide (c ≠ '?' ∧ c ≠ '#') := by
  simp only [path, located, withoutHost_url, List.takeWhile_takeWhile, bne_iff_ne]

/-- The path is the whole target when neither mark stands in it. -/
theorem path_url_eq_iff :
    (Request.mk .get (Route.url name id) contentType body).path = (Route.url name id).toList ↔
      '?' ∉ (Route.url name id).toList ∧ '#' ∉ (Route.url name id).toList := by
  rw [path_url, List.takeWhile_eq_self_iff]
  constructor
  · intro whole
    exact ⟨fun mark => (of_decide_eq_true (whole _ mark)).1 rfl,
      fun mark => (of_decide_eq_true (whole _ mark)).2 rfl⟩
  · rintro ⟨noQuery, noFragment⟩ c member
    apply decide_eq_true
    constructor
    · rintro rfl
      exact noQuery member
    · rintro rfl
      exact noFragment member

theorem query_url (noQuery : '?' ∉ (Route.url name id).toList) :
    (Request.mk .get (Route.url name id) contentType body).query = [] := by
  have unasked : (Request.mk .get (Route.url name id) contentType body).located.dropWhile
      (· != '?') = [] := by
    rw [located, withoutHost_url, List.dropWhile_eq_nil_iff]
    intro c member
    rw [bne_iff_ne]
    rintro rfl
    exact noQuery ((List.takeWhile_prefix _).subset member)
  rw [query, unasked, List.drop_nil]

end Request

namespace Intake

variable {name id : String} {contentType : Option String} {body : Body}

/-- A request to read is a request for a document exactly when its path captures the
id. -/
theorem ofRequest_get_eq_read_iff {target : String} {fields : Option String} :
    ofRequest name ⟨.get, target, contentType, body⟩ = .call (.read id fields) ↔
      (∃ piece, Route.find? name (Request.mk .get target contentType body).path =
        some (.document [piece]) ∧ Route.captured? piece = some id) ∧
      Call.fieldsOf ⟨.get, target, contentType, body⟩ = .ok fields := by
  rw [ofRequest, if_neg (by simp)]
  cases Route.find? name (Request.mk .get target contentType body).path with
  | none => simp
  | some route =>
      cases route with
      | health => simp [ifReading]
      | metrics => simp [ifReading]
      | collection => simp [ofAttempt, Call.onCollection]
      | document captures =>
          have single : (∃ piece, some (Route.document captures) = some (.document [piece]) ∧
              Route.captured? piece = some id) ↔ Call.idOf captures = .ok id := by
            simp [Call.idOf_eq_ok_iff]
          rw [single]
          simp only [Call.onDocument]
          cases Call.idOf captures with
          | error status => simp [ofAttempt, bind, Except.bind]
          | ok found =>
              cases Call.fieldsOf ⟨.get, target, contentType, body⟩ with
              | error status => simp [ofAttempt, bind, Except.bind]
              | ok wanted => simp [ofAttempt, bind, Except.bind, pure, Except.pure]

/-- A request for the path of a document is a request for that document exactly when
the document can be asked for under it. -/
theorem ofRequest_get_url_iff {fields : Option String} :
    ofRequest name ⟨.get, Route.url name id, contentType, body⟩ = .call (.read id fields) ↔
      Route.Addressable name id ∧ fields = none := by
  have fieldsOf (noQuery : '?' ∉ (Route.url name id).toList) :
      Call.fieldsOf ⟨.get, Route.url name id, contentType, body⟩ = .ok none := by
    rw [Call.fieldsOf, Request.parameters, Request.query_url noQuery]
    rfl
  rw [ofRequest_get_eq_read_iff]
  constructor
  · rintro ⟨⟨piece, found, captured⟩, asked⟩
    rcases Route.find?_eq_document_singleton_iff.mp found with ⟨noCapture, nonempty, single, path⟩
    -- The path starts as the whole target does, so what it captures starts the id.
    have starts : (Route.base name).toList ++ '/' :: piece <+:
        (Route.base name).toList ++ '/' :: id.toList := by
      rw [← path, ← Route.toList_url, Request.path_url]
      exact List.takeWhile_prefix _
    rw [List.prefix_append_right_inj, List.cons_prefix_cons] at starts
    have same := Route.eq_of_captured?_of_prefix starts.2 captured
    subst same
    rw [← Route.toList_url, Request.path_url_eq_iff] at path
    rcases path with ⟨noQuery, noFragment⟩
    rw [fieldsOf noQuery] at asked
    rw [Route.captured?_eq_some_iff, String.ofList_toList, percentDecode_eq_self_iff] at captured
    refine ⟨⟨noCapture, noQuery, noFragment, single, ?_, captured⟩, (Except.ok.inj asked).symm⟩
    rintro rfl
    exact nonempty rfl
  · rintro ⟨⟨noCapture, noQuery, noFragment, single, nonempty, unescaped⟩, rfl⟩
    have whole : (Request.mk .get (Route.url name id) contentType body).path =
        (Route.base name).toList ++ '/' :: id.toList := by
      rw [← Route.toList_url, Request.path_url_eq_iff]
      exact ⟨noQuery, noFragment⟩
    refine ⟨⟨id.toList, ?_, ?_⟩, fieldsOf noQuery⟩
    · rw [Route.find?_eq_document_singleton_iff]
      exact ⟨noCapture, fun none => nonempty (String.toList_eq_nil_iff.mp none), single, whole⟩
    · rw [Route.captured?_eq_some_iff, String.ofList_toList, percentDecode_eq_self_iff]
      exact unescaped

end Intake

end Folio
