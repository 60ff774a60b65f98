import Folio.Collection.Config
import Folio.Proofs.Text.Front

/-!
# Keys of a collection

The documents of a collection stand under keys that start with its name and a
hyphen, in the order of their public ids.  No such key is the key of the design
document, whatever the collection is called.
-/

namespace Folio.CollectionConfig

open Text

variable {config : CollectionConfig}

theorem privateId_eq (config : CollectionConfig) (id : String) :
    config.privateId id = config.keyStart ++ id := rfl

/-- A key belongs to the collection exactly when it is made from a public id. -/
theorem publicId?_eq_some_iff {key id : String} :
    config.publicId? key = some id ↔ key = config.privateId id :=
  after?_eq_some_iff

@[simp]
theorem publicId?_privateId (config : CollectionConfig) (id : String) :
    config.publicId? (config.privateId id) = some id :=
  publicId?_eq_some_iff.mpr rfl

/-- Different public ids make different keys. -/
theorem privateId_injective (config : CollectionConfig) : Function.Injective config.privateId := by
  intro first second same
  have found := publicId?_privateId config first
  rw [same, publicId?_privateId] at found
  exact (Option.some.inj found).symm

theorem privateId_lt_iff {first second : String} :
    config.privateId first < config.privateId second ↔ first < second :=
  append_lt_append_iff

/-- No document of a collection stands under the key of its design document. -/
theorem privateId_ne_designId (config : CollectionConfig) (id : String) :
    config.privateId id ≠ config.designId := by
  intro same
  have chars : config.name.toList ++ '-' :: id.toList =
      "_design/".toList ++ config.name.toList := by
    simpa [privateId, designId, designKey] using congrArg String.toList same
  exact append_separator_ne (by decide) _ _ chars

theorem not_startsWith_designId (config : CollectionConfig) :
    ¬ startsWith config.keyStart config.designId := by
  intro starts
  rcases exists_eq_append_of_startsWith starts with ⟨id, same⟩
  exact privateId_ne_designId config id same.symm

theorem publicId?_designId (config : CollectionConfig) :
    config.publicId? config.designId = none := by
  rw [Option.eq_none_iff_forall_not_mem]
  intro id found
  exact privateId_ne_designId config id (publicId?_eq_some_iff.mp found).symm

end Folio.CollectionConfig
