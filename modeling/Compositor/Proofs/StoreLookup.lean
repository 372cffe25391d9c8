import Mathlib.Data.List.Perm.Basic
import Compositor.Proofs.Call

namespace Compositor

variable {ρ : Type}

/-! Rendering sees a store only through what its identifiers lead to. -/

section

variable {store other : Store ρ} (same : ∀ id, other.get? id = store.get? id)

include same

theorem Store.contains_congr (id : String) : other.contains id = store.contains id := by
  rw [← other.get?_isSome, ← store.get?_isSome, same]

theorem Store.length_index_congr : other.index.length = store.index.length := by
  have permuted : other.ids.Perm store.ids := by
    refine (List.perm_ext_iff_of_nodup other.index_distinct store.index_distinct).mpr ?_
    intro id
    change id ∈ other.ids ↔ id ∈ store.ids
    rw [← not_iff_not, ← get?_eq_none_iff, ← get?_eq_none_iff, same]
  have lengths := permuted.length_eq
  rw [ids, ids, Entries.keys, Entries.keys, List.length_map, List.length_map] at lengths
  exact lengths

namespace Render

variable (nested : Nested ρ)

theorem runScript_store_congr (script : Script ρ) :
    runScript nested other script = runScript nested store script := by
  induction script with
  | give value => rfl
  | fail error => rfl
  | put changed next induction => rw [runScript, runScript, induction]
  | look id next induction =>
      rw [runScript, runScript, same]
      exact induction (store.get? id)
  | render id extra next induction =>
      rw [runScript, runScript]
      simp only [induction]

variable [Extension ρ]

theorem evaluate_store_congr (key : String) (renderer : Renderer ρ) :
    evaluate nested other key renderer = evaluate nested store key renderer := by
  cases renderer with
  | reference mode target => rfl
  | template template => rfl
  | supplied renderer =>
      unfold evaluate
      simp only [runScript_store_congr same]

theorem resolve_store_congr (merged layout : Document ρ) :
    resolve nested other merged layout = resolve nested store merged layout := by
  have evaluated : evaluateKey nested other layout = evaluateKey nested store layout := by
    funext key
    unfold evaluateKey
    simp only [evaluate_store_congr same]
  rw [resolve, resolve, evaluated]

theorem applyLayouts_store_congr (remaining : Nat) (used : List String)
    (document : Document ρ) :
    applyLayouts nested other remaining used document =
      applyLayouts nested store remaining used document := by
  induction remaining generalizing used document with
  | zero =>
      rw [applyLayouts_eq, applyLayouts_eq]
      simp only [same]
  | succ remaining induction =>
      have following (names : List String) : applyLayouts nested other remaining names =
          applyLayouts nested store remaining names :=
        funext (induction names)
      rw [applyLayouts_eq, applyLayouts_eq]
      simp only [same, resolve_store_congr same, following]

theorem renderDocument_store_congr (start : Document ρ) (extra : Option (Document ρ)) :
    renderDocument nested other start extra = renderDocument nested store start extra := by
  have composed : compose nested other start extra = compose nested store start extra := by
    unfold compose
    simp only [resolve_store_congr same, applyLayouts_store_congr same,
      Store.length_index_congr same]
  unfold renderDocument
  rw [composed]

theorem renderStored_store_congr (depth : Nat) :
    renderStored other depth = renderStored store depth := by
  induction depth with
  | zero =>
      funext id extra
      rw [renderStored, renderStored, Store.contains_congr same]
  | succ depth induction =>
      funext id extra
      rw [renderStored, renderStored, same, induction]
      simp only [renderDocument_store_congr same]

end Render

variable [Extension ρ]

theorem Call.outcome_eq_of_get?_eq (call : Call ρ) :
    call.outcome other = call.outcome store := by
  have nested : other.nested = store.nested := by
    rw [Store.nested, Store.nested, Store.length_index_congr same,
      Render.renderStored_store_congr same]
  obtain ⟨request, extra, chain⟩ := call
  cases request with
  | stored id => rw [outcome, outcome, Store.render, Store.render, nested]
  | direct document =>
      rw [outcome, outcome, Store.render, Store.render, nested,
        Render.renderDocument_store_congr same]

end

end Compositor
