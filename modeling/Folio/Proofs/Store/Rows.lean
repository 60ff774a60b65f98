import Folio.Proofs.Store.Entries
import Folio.Proofs.Text.Front
import Folio.Store.View

/-!
# The rows of a view

The keys are in ascending order, so those that start alike stand together and a scan
from the first of them finds them all.  Rows are the entries that are alive and start as
the view asks for; a view of one key has at most one row.
-/

namespace Folio.Store

open Text

variable {store : Store} {start : String}

/-- Among ascending keys that are not below a text, those that start with it come
first. -/
theorem takeWhile_startsWith {entries : List (String × Json)}
    (ascending : entries.Pairwise fun a b => a.1 < b.1)
    (above : ∀ entry ∈ entries, ¬ entry.1 < start) :
    entries.takeWhile (fun entry => startsWith start entry.1) =
      entries.filter fun entry => startsWith start entry.1 := by
  induction entries with
  | nil => rfl
  | cons entry rest ih =>
      rw [List.pairwise_cons] at ascending
      rw [List.forall_mem_cons] at above
      by_cases starts : startsWith start entry.1
      · rw [List.takeWhile_cons, if_pos starts, List.filter_cons, if_pos starts,
          ih ascending.2 above.2]
      · have none : ∀ later ∈ entry :: rest, ¬ startsWith start later.1 := by
          intro later member
          rcases List.mem_cons.mp member with rfl | behind
          · exact starts
          · intro startsLater
            exact starts (startsWith_of_between above.1 (ascending.1 later behind) startsLater)
        rw [List.takeWhile_cons, if_neg starts, List.filter_eq_nil_iff.mpr none]

/-- A scan finds every entry whose key starts with the text. -/
theorem scan_eq_filter (store : Store) (start : String) :
    store.scan start = store.entries.filter fun entry => startsWith start entry.1 := by
  rcases store with ⟨entries, ascending⟩
  simp only [scan]
  induction entries with
  | nil => rfl
  | cons entry rest ih =>
      by_cases below : entry.1 < start
      · have apart : ¬ startsWith start entry.1 := fun starts => not_lt_of_startsWith starts below
        rw [List.dropWhile_cons, if_pos (decide_eq_true below), List.filter_cons, if_neg apart]
        exact ih (List.pairwise_cons.mp ascending).2
      · rw [List.dropWhile_cons, if_neg (by simpa using below)]
        apply takeWhile_startsWith ascending
        rw [List.forall_mem_cons]
        refine ⟨below, fun later member lower => below ?_⟩
        exact String.lt_trans ((List.pairwise_cons.mp ascending).1 later member) lower

/-- The rows are made of the entries that are alive, start as asked and have the key
asked for. -/
theorem rowsFrom_eq (store : Store) (start : String) (options : ViewOptions) :
    store.rowsFrom start options =
      (store.entries.filter fun entry =>
        startsWith start entry.1 && !entry.2.isDeleted && options.key.all (· == entry.1)).map
          fun entry =>
            ⟨entry.1, entry.1, entry.2,
              if options.includeDocuments then some entry.2 else none⟩ := by
  rw [rowsFrom, scan_eq_filter, List.filter_filter]
  congr 1
  apply List.filter_congr
  intro entry _
  rw [Bool.and_comm, Bool.and_assoc]

theorem startsWith_of_mem_rowsFrom {options : ViewOptions} {row : ViewRow}
    (member : row ∈ store.rowsFrom start options) : startsWith start row.key := by
  rw [rowsFrom_eq, List.mem_map] at member
  rcases member with ⟨entry, found, rfl⟩
  have shown := (List.mem_filter.mp found).2
  rw [Bool.and_eq_true, Bool.and_eq_true] at shown
  exact shown.1.1

/-- The rows for one key are the document that is alive there. -/
theorem rowsFrom_key {key : String} (starts : startsWith start key = true)
    (includeDocuments : Bool) :
    store.rowsFrom start { key := some key, includeDocuments } =
      (store.live? key).toList.map fun document =>
        ⟨key, key, document, if includeDocuments then some document else none⟩ := by
  have found : (store.entries.filter fun entry =>
        startsWith start entry.1 && !entry.2.isDeleted && (some key).all (· == entry.1)) =
      (store.live? key).toList.map fun document => (key, document) := by
    apply eq_of_ascending_of_mem_iff (store.ascending.filter _)
    · cases store.live? key <;> simp
    · rintro ⟨other, document⟩
      rw [List.mem_filter, mem_entries_iff]
      simp only [Bool.and_eq_true, Bool.not_eq_true', Option.all_some, beq_iff_eq, List.mem_map,
        Option.mem_toList, Prod.mk.injEq, live?_eq_some_iff]
      constructor
      · rintro ⟨current, ⟨_, alive⟩, rfl⟩
        exact ⟨document, ⟨current, alive⟩, rfl, rfl⟩
      · rintro ⟨_, ⟨current, alive⟩, rfl, rfl⟩
        exact ⟨current, ⟨starts, alive⟩, rfl⟩
  simp only [rowsFrom_eq, found, List.map_map]
  rfl

theorem rowsFrom_key_of_not_startsWith {key : String} (apart : ¬ startsWith start key)
    (includeDocuments : Bool) :
    store.rowsFrom start { key := some key, includeDocuments } = [] := by
  rw [rowsFrom_eq, List.map_eq_nil_iff, List.filter_eq_nil_iff]
  rintro entry _ shown
  simp only [Option.all_some, Bool.and_eq_true, beq_iff_eq] at shown
  exact apart (shown.2 ▸ shown.1.1)

end Folio.Store
