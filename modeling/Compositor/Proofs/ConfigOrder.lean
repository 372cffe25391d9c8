import Mathlib.Data.List.Perm.Basic
import Compositor.Proofs.TreeLoad

namespace Compositor

/-! In which order a configuration is applied matters only if it is ambiguous. -/

/-- No two entries give one extension different types. -/
def Config.Unambiguous (config : Config) : Prop :=
  ∀ first ∈ config, ∀ second ∈ config,
    FileTypes.normalize first.1 = FileTypes.normalize second.1 → first.2 = second.2

instance (config : Config) : Decidable config.Unambiguous :=
  inferInstanceAs (Decidable (∀ first ∈ config, ∀ second ∈ config,
    FileTypes.normalize first.1 = FileTypes.normalize second.1 → first.2 = second.2))

namespace FileTypes

theorem find?_set (types : FileTypes) (extension : String) (type : FileType)
    (other : String) :
    (types.set extension type).find? other =
      if normalize extension = normalize other then some type else types.find? other :=
  Entries.get?_insert types (normalize extension) type (normalize other)

theorem find?_apply_of_forall_ne {overrides : Config} {extension : String}
    (others : ∀ override ∈ overrides, normalize override.1 ≠ normalize extension)
    (types : FileTypes) : (types.apply overrides).find? extension = types.find? extension := by
  induction overrides generalizing types with
  | nil => rfl
  | cons override rest induction =>
      obtain ⟨other, later⟩ := List.forall_mem_cons.mp others
      exact (induction later _).trans ((find?_set _ _ _ _).trans (if_neg other))

/-- The override that is applied last decides, so where the overrides are unambiguous
any of them does. -/
theorem find?_apply_of_mem {overrides : Config} (unambiguous : overrides.Unambiguous)
    {override : String × FileType} (member : override ∈ overrides) {extension : String}
    (names : normalize override.1 = normalize extension) (types : FileTypes) :
    (types.apply overrides).find? extension = some override.2 := by
  induction overrides using List.reverseRecOn with
  | nil => cases member
  | append_singleton overrides last induction =>
      have applied : types.apply (overrides ++ [last]) =
          (types.apply overrides).set last.1 last.2 := List.foldl_append
      have lastMember : last ∈ overrides ++ [last] := by simp
      rw [applied, find?_set]
      split
      · rename_i lastNames
        rw [unambiguous last lastMember override member (lastNames.trans names.symm)]
      · rename_i other
        rcases List.mem_append.mp member with earlier | atEnd
        · refine induction ?_ earlier
          intro first firstMember second secondMember
          exact unambiguous first (List.mem_append_left _ firstMember) second
            (List.mem_append_left _ secondMember)
        · obtain rfl := List.mem_singleton.mp atEnd
          exact absurd names other

theorem find?_apply_perm {overrides other : Config} (permuted : other.Perm overrides)
    (unambiguous : overrides.Unambiguous) (types : FileTypes) (extension : String) :
    (types.apply other).find? extension = (types.apply overrides).find? extension := by
  have unambiguousOther : other.Unambiguous := by
    intro first firstMember second secondMember
    exact unambiguous first (permuted.mem_iff.mp firstMember) second
      (permuted.mem_iff.mp secondMember)
  by_cases named : ∃ override ∈ overrides, normalize override.1 = normalize extension
  · obtain ⟨override, member, names⟩ := named
    rw [find?_apply_of_mem unambiguous member names,
      find?_apply_of_mem unambiguousOther (permuted.mem_iff.mpr member) names]
  · push Not at named
    rw [find?_apply_of_forall_ne named, find?_apply_of_forall_ne]
    exact fun override member => named override (permuted.mem_iff.mp member)

end FileTypes

namespace Engine

variable {ρ : Type} {engine other : Engine ρ}

/-- Both engines make the same of a file, whatever its name, and hold the same. -/
structure ReadsAlike (engine other : Engine ρ) : Prop where
  filters_eq : other.filters = engine.filters
  find?_eq : ∀ extension,
    other.fileTypes.find? extension = engine.fileTypes.find? extension
  store_eq : other.store = engine.store

theorem ReadsAlike.refl (engine : Engine ρ) : engine.ReadsAlike engine :=
  ⟨rfl, fun _ => rfl, rfl⟩

theorem ReadsAlike.document?_eq (alike : engine.ReadsAlike other) (tree : FileTree) :
    other.document? tree = engine.document? tree := by
  funext path
  have types : other.fileTypes.forPath? path = engine.fileTypes.forPath? path := by
    unfold FileTypes.forPath?
    cases Path.extension? path with
    | none => rfl
    | some extension => exact alike.find?_eq extension
  rw [document?, document?, types, alike.filters_eq]

theorem ReadsAlike.loadTree (alike : engine.ReadsAlike other) {tree : FileTree}
    {root : String} {paths : List String} (walked : tree.walk? root = some paths) :
    (engine.loadTree tree root).engine.ReadsAlike (other.loadTree tree root).engine := by
  rw [loadTree_eq walked, loadTree_eq walked]
  refine ⟨alike.filters_eq, alike.find?_eq, ?_⟩
  rw [alike.document?_eq, alike.store_eq]

theorem configure_readsAlike {overrides : Config} (unambiguous : overrides.Unambiguous)
    (engine : Engine ρ) (order otherOrder : Config.Order) :
    (engine.configure overrides order).ReadsAlike (engine.configure overrides otherOrder) := by
  refine ⟨rfl, fun extension => ?_, rfl⟩
  have applied (chosen : Config.Order) := FileTypes.find?_apply_perm
    (chosen.perm overrides) unambiguous engine.fileTypes extension
  exact (applied otherOrder).trans (applied order).symm

end Engine

end Compositor
