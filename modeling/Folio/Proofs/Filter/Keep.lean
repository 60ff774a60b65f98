import Folio.Proofs.Filter.Matching

/-!
# Keeping documents

Working the paths of filters out beforehand is no more than a short cut: the
documents that are kept are those that every filter admits by itself.  So neither
the order of the filters nor their repetition matters, and keeping by one list and
then by another one is keeping by both.
-/

namespace Folio.Filter

/-- A filter with a path admits what matches at its end. -/
theorem admits_of_path {filter : Filter} {path : List String} (resolved : filter.path = .ok path)
    (document : Json) :
    filter.admits document = matchesAt document path filter.operator filter.value := by
  rw [admits, resolved]

theorem admits_eq_false_of_path {filter : Filter}
    (unresolved : ∀ path, filter.path ≠ .ok path) (document : Json) :
    filter.admits document = false := by
  rw [admits]
  cases resolution : filter.path with
  | ok path => exact absurd resolution (unresolved path)
  | error _ => rfl

/-- Filters that all have a path admit along their paths what they admit. -/
theorem all_matchesAt_of_resolve?_eq_some {filters : List Filter}
    {resolved : List (List String × Filter)} (found : resolve? filters = some resolved)
    (document : Json) :
    (resolved.all fun (path, filter) => matchesAt document path filter.operator filter.value) =
      filters.all (·.admits document) := by
  induction filters generalizing resolved with
  | nil =>
      cases found
      rfl
  | cons filter rest ih =>
      cases path : filter.path with
      | error refusal => simp [resolve?, path] at found
      | ok names =>
          rw [resolve?, path] at found
          rcases Option.map_eq_some_iff.mp found with ⟨later, laterFound, rfl⟩
          simp [admits_of_path path, ih laterFound]

theorem exists_refusing_of_resolve?_eq_none {filters : List Filter}
    (unresolved : resolve? filters = none) :
    ∃ filter ∈ filters, ∀ document, filter.admits document = false := by
  induction filters with
  | nil => simp [resolve?] at unresolved
  | cons filter rest ih =>
      cases path : filter.path with
      | error refusal => exact ⟨filter, List.mem_cons_self, by simp [admits, path]⟩
      | ok names =>
          rw [resolve?, path] at unresolved
          rcases ih (Option.map_eq_none_iff.mp unresolved) with ⟨culprit, member, refuses⟩
          exact ⟨culprit, List.mem_cons_of_mem _ member, refuses⟩

theorem filter_all_admits_eq_nil {filters : List Filter} {filter : Filter}
    (member : filter ∈ filters) (refuses : ∀ document, filter.admits document = false)
    (documents : List Json) :
    (documents.filter fun document => filters.all (·.admits document)) = [] := by
  rw [List.filter_eq_nil_iff]
  intro document _ admitted
  have accepts := List.all_eq_true.mp admitted filter member
  rw [refuses document] at accepts
  exact Bool.false_ne_true accepts

/-- The documents that are kept are those that all filters admit. -/
theorem keep_eq_filter (filters : List Filter) (documents : List Json) :
    keep filters documents = documents.filter fun document => filters.all (·.admits document) := by
  cases filters with
  | nil => exact (List.filter_eq_self.mpr fun _ _ => rfl).symm
  | cons filter rest =>
      simp only [keep]
      cases resolution : resolve? (filter :: rest) with
      | none =>
          obtain ⟨culprit, member, refuses⟩ := exists_refusing_of_resolve?_eq_none resolution
          exact (filter_all_admits_eq_nil member refuses documents).symm
      | some resolved =>
          exact List.filter_congr fun document _ =>
            all_matchesAt_of_resolve?_eq_some resolution document

theorem keep_congr {filters others : List Filter}
    (same : ∀ filter, filter ∈ others ↔ filter ∈ filters) (documents : List Json) :
    keep others documents = keep filters documents := by
  rw [keep_eq_filter, keep_eq_filter]
  apply List.filter_congr
  intro document _
  rw [Bool.eq_iff_iff, List.all_eq_true, List.all_eq_true]
  exact forall_congr' fun filter => imp_congr_left (same filter)

theorem keep_append (filters more : List Filter) (documents : List Json) :
    keep (filters ++ more) documents = keep more (keep filters documents) := by
  rw [keep_eq_filter, keep_eq_filter, keep_eq_filter, List.filter_filter]
  apply List.filter_congr
  intro document _
  rw [List.all_append, Bool.and_comm]

/-- The documents that are kept are those that every filter admits, in their order and as
often as they are given.  So a filter without a path leaves none, the order and the repetition
of filters do not matter, and keeping can be done by one list of filters after the other. -/
theorem keep_exact (filters : List Filter) (documents : List Json) :
    keep filters documents = documents.filter (fun document => filters.all (·.admits document)) ∧
    (∀ filter ∈ filters, (∀ path, filter.path ≠ .ok path) → keep filters documents = []) ∧
    (∀ others, (∀ filter, filter ∈ others ↔ filter ∈ filters) →
      keep others documents = keep filters documents) ∧
    ∀ more, keep more (keep filters documents) = keep (filters ++ more) documents := by
  refine ⟨keep_eq_filter filters documents, ?_, ?_, ?_⟩
  · intro filter member unresolved
    rw [keep_eq_filter]
    exact filter_all_admits_eq_nil member (admits_eq_false_of_path unresolved) documents
  · intro others same
    exact keep_congr same documents
  · intro more
    exact (keep_append filters more documents).symm

/-- Both cats that are called Tom are kept, also when they are asked for twice, and no cat when
two names are asked for at once. -/
theorem keep_exact_toms :
    keep [⟨"name", .equals, "tom"⟩]
        [.object [("name", .string "tom")], .object [("name", .string "kit")],
          .object [("name", .string "tom")]] =
      [.object [("name", .string "tom")], .object [("name", .string "tom")]] ∧
    keep [⟨"name", .equals, "tom"⟩, ⟨"name", .equals, "tom"⟩] [.object [("name", .string "tom")]] =
      keep [⟨"name", .equals, "tom"⟩] [.object [("name", .string "tom")]] ∧
    keep [⟨"name", .equals, "tom"⟩, ⟨"name,race", .equals, "tom"⟩]
        [.object [("name", .string "tom"), ("race", .string "tom")]] = [] := by
  have name : path ⟨"name", .equals, "tom"⟩ = .ok ["name"] :=
    pathOf_eq_ok_iff.mpr ⟨_, _, rfl, rfl⟩
  have unresolved : ∀ found, path ⟨"name,race", .equals, "tom"⟩ ≠ .ok found := by
    intro found resolved
    rcases pathOf_eq_ok_iff.mp resolved with ⟨first, rest, _, read⟩
    have both : Selection.read "name,race" = .ok [("name", .leaf), ("race", .leaf)] := rfl
    rw [both] at read
    simp [Selection.branch] at read
  refine ⟨?_, ?_, ?_⟩
  · rw [(keep_exact _ _).1]
    simp only [List.all_cons, List.all_nil, admits_of_path name]
    rfl
  · apply (keep_exact _ _).2.2.1
    simp
  · exact (keep_exact _ _).2.1 _ (by simp) unresolved

end Folio.Filter
