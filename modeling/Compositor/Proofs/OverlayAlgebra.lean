import Compositor.Proofs.Overlay

namespace Compositor

variable {ρ α : Type}

/-- Entries with distinct keys are known by their keys in order and by what is found
under each. -/
theorem Entries.ext_get? {first second : Entries α} (distinct : first.keys.Nodup)
    (keys : first.keys = second.keys) (found : ∀ key, first.get? key = second.get? key) :
    first = second := by
  induction first generalizing second with
  | nil => exact (List.map_eq_nil_iff.mp keys.symm).symm
  | cons entry rest induction =>
      obtain ⟨name, value⟩ := entry
      cases second with
      | nil => cases keys
      | cons other others =>
          obtain ⟨otherName, otherValue⟩ := other
          rw [keys_cons, keys_cons] at keys
          obtain ⟨rfl, keysRest⟩ := List.cons_eq_cons.mp keys
          rw [keys_cons, List.nodup_cons] at distinct
          have same := found name
          rw [get?_cons, get?_cons, if_pos rfl, if_pos rfl] at same
          cases same
          refine congrArg _ (induction distinct.2 keysRest ?_)
          intro key
          have foundRest := found key
          rw [get?_cons, get?_cons] at foundRest
          by_cases first : name = key
          · subst first
            have absentRest : get? rest name = none := get?_eq_none_iff.mpr distinct.1
            have absentOthers : get? others name = none :=
              get?_eq_none_iff.mpr (keysRest ▸ distinct.1)
            rw [absentRest, absentOthers]
          · rwa [if_neg first, if_neg first] at foundRest

namespace Document

theorem ext_get? {first second : Document ρ} (keys : first.keys = second.keys)
    (found : ∀ key, first.get? key = second.get? key) : first = second :=
  Document.ext (Entries.ext_get? first.distinct keys found)

/-! Laying documents over each other. -/

theorem overlay_assoc (first second third : Document ρ) :
    (first.overlay second).overlay third = first.overlay (second.overlay third) := by
  apply ext_get?
  · simp only [keys_overlay, List.filter_append, List.filter_filter, List.append_assoc,
      List.mem_append, List.mem_filter]
    congr 2
    apply List.filter_congr
    intro key _
    by_cases low : key ∈ first.keys
    · simp [low]
    · simp [low]
  · intro key
    simp only [get?_overlay, Option.or_assoc]

instance : Std.Associative (@overlay ρ) := ⟨overlay_assoc⟩

theorem overlay_empty (document : Document ρ) : document.overlay empty = document := rfl

theorem overlay_self (document : Document ρ) : document.overlay document = document := by
  apply ext_get?
  · rw [keys_overlay]
    simp
  · intro key
    rw [get?_overlay, Option.or_self]

/-- The document with one entry. -/
def singleton (key : String) (value : Value ρ) : Document ρ :=
  empty.insert key value

theorem overlay_singleton (document : Document ρ) (key : String) (value : Value ρ) :
    document.overlay (singleton key value) = document.insert key value := rfl

theorem entries_foldl_overlay (document : Document ρ) (entries : Entries (Value ρ)) :
    ((entries.map fun entry => singleton entry.1 entry.2).foldl overlay document).entries =
      document.entries.overlay entries := by
  induction entries generalizing document with
  | nil => rfl
  | cons entry rest induction =>
      rw [List.map_cons, List.foldl_cons, overlay_singleton]
      exact induction (document.insert entry.1 entry.2)

theorem ofEntries_eq_foldl (entries : Entries (Value ρ)) :
    ofEntries entries =
      (entries.map fun entry => singleton entry.1 entry.2).foldl overlay empty :=
  Document.ext (empty.entries_foldl_overlay entries).symm

theorem entries_overlay_ofEntries (document : Document ρ) (entries : Entries (Value ρ)) :
    (document.overlay (ofEntries entries)).entries = document.entries.overlay entries := by
  have regrouped (singles : List (Document ρ)) :
      singles.foldl overlay (document.overlay empty) =
        document.overlay (singles.foldl overlay empty) := List.foldl_assoc
  rw [ofEntries_eq_foldl, ← regrouped, overlay_empty, entries_foldl_overlay]

/-! Leaving keys out. -/

/-- Keeps the entries with certain keys. -/
def retainKeys (document : Document ρ) (keep : String → Bool) : Document ρ :=
  document.filter fun entry => keep entry.1

/-- Removes keys one after the other. -/
def eraseKeys (document : Document ρ) (keys : List String) : Document ρ :=
  keys.foldl erase document

theorem keys_retainKeys (document : Document ρ) (keep : String → Bool) :
    (document.retainKeys keep).keys = document.keys.filter keep := by
  change (document.entries.filter fun entry => keep entry.1).map Prod.fst =
    (document.entries.map Prod.fst).filter keep
  rw [List.filter_map]
  rfl

theorem get?_retainKeys (document : Document ρ) (keep : String → Bool) (key : String) :
    (document.retainKeys keep).get? key = if keep key then document.get? key else none := by
  rw [retainKeys, get?_filter]
  dsimp only
  cases keep key <;> cases document.get? key <;> rfl

theorem retainKeys_overlay (lower upper : Document ρ) (keep : String → Bool) :
    (lower.overlay upper).retainKeys keep =
      (lower.retainKeys keep).overlay (upper.retainKeys keep) := by
  apply ext_get?
  · simp only [keys_retainKeys, keys_overlay, List.filter_append, List.filter_filter]
    congr 1
    apply List.filter_congr
    intro key _
    cases kept : keep key <;> simp [kept]
  · intro key
    simp only [get?_retainKeys, get?_overlay]
    cases keep key <;> simp

theorem erase_overlay (lower upper : Document ρ) (key : String) :
    (lower.overlay upper).erase key = (lower.erase key).overlay (upper.erase key) :=
  retainKeys_overlay lower upper fun other => other ≠ key

theorem eraseKeys_overlay (lower upper : Document ρ) (keys : List String) :
    (lower.overlay upper).eraseKeys keys =
      (lower.eraseKeys keys).overlay (upper.eraseKeys keys) := by
  induction keys generalizing lower upper with
  | nil => rfl
  | cons key rest induction =>
      have erased := induction (lower.erase key) (upper.erase key)
      rw [← erase_overlay] at erased
      exact erased

/-- Documents in order form an idempotent monoid under overlaying, and leaving keys
out is a homomorphism of it. -/
structure OverlayLaws (first second third : Document ρ) : Prop where
  assoc : (first.overlay second).overlay third = first.overlay (second.overlay third)
  empty_overlay : empty.overlay first = first
  overlay_empty : first.overlay empty = first
  overlay_self : first.overlay first = first
  get? : ∀ key, (first.overlay second).get? key =
    if key ∈ second.keys then second.get? key else first.get? key
  keys : (first.overlay second).keys =
    first.keys ++ second.keys.filter fun key => key ∉ first.keys
  distinct : (first.overlay second).keys.Nodup
  retained : ∀ keep : String → Bool, (first.overlay second).retainKeys keep =
    (first.retainKeys keep).overlay (second.retainKeys keep)
  erased : ∀ keys : List String, (first.overlay second).eraseKeys keys =
    (first.eraseKeys keys).overlay (second.eraseKeys keys)

/-- Laying documents over each other is associative and keeps the order of the keys.
A document is made of its entries, laid over each other one by one. -/
theorem overlayLaws (first second third : Document ρ) :
    OverlayLaws first second third ∧
      ∀ entries : Entries (Value ρ), ofEntries entries =
        (entries.map fun entry => singleton entry.1 entry.2).foldl overlay empty := by
  refine ⟨?_, ofEntries_eq_foldl⟩
  refine {
    assoc := overlay_assoc first second third
    empty_overlay := empty_overlay first
    overlay_empty := overlay_empty first
    overlay_self := overlay_self first
    get? := ?get?
    keys := keys_overlay first second
    distinct := (first.overlay second).distinct
    retained := retainKeys_overlay first second
    erased := eraseKeys_overlay first second }
  intro key
  rw [get?_overlay]
  split
  · rename_i held
    obtain ⟨value, found⟩ := (second.mem_keys_iff key).mp held
    rw [found, Option.some_or]
  · rename_i absent
    rw [Document.get?, Entries.get?_eq_none_iff.mpr absent, Option.none_or]

end Document

end Compositor
