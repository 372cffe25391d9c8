import Compositor.Proofs.Runs

namespace Compositor

namespace Render

variable {ρ α β : Type}

/-- An action that leaves the chain as it was, whatever its outcome. -/
def KeepsChain (action : RenderM α) : Prop :=
  ∀ chain, (runOn action chain).2 = chain

def EvaluationKeepsChain (action : EvaluateM ρ α) : Prop :=
  ∀ context chain, (runIn action context chain).2 = chain

theorem KeepsChain.within {action : RenderM α} (keeps : KeepsChain action)
    (id : String) : KeepsChain (within id action) := by
  intro chain
  rw [runOn_within]
  change (runOn action (chain ++ [id])).2.dropLast = chain
  rw [keeps, List.dropLast_concat]

theorem KeepsChain.bind {action : RenderM α} {next : α → RenderM β}
    (first : KeepsChain action) (second : ∀ value, KeepsChain (next value)) :
    KeepsChain (action >>= next) := by
  intro chain
  have kept := first chain
  rw [runOn_bind]
  generalize runOn action chain = outcome at kept ⊢
  obtain ⟨error | value, after⟩ := outcome
  · exact kept
  · exact (second value after).trans kept

section

variable {nested : Nested ρ} (keeps : ∀ id extra, KeepsChain (nested id extra))
include keeps

theorem evaluateReference_keepsChain (target key : String) (mode : Mode) :
    EvaluationKeepsChain (evaluateReference nested target key mode) := by
  intro context chain
  have kept := keeps target (handedOver mode context key) chain
  rw [runIn_evaluateReference]
  generalize runOn (nested target (handedOver mode context key)) chain = outcome
    at kept ⊢
  obtain ⟨error | _ | rendered, after⟩ := outcome <;> exact kept

variable (store : Store ρ)

theorem runScript_keepsChain (script : Script ρ) :
    EvaluationKeepsChain (runScript nested store script) := by
  intro context chain
  induction script generalizing context chain with
  | give value => rw [runIn_runScript_give]
  | fail error => rw [runIn_runScript_fail]
  | put changed next induction =>
      rw [runIn_runScript_put]
      exact induction changed chain
  | look id next induction =>
      rw [runIn_runScript_look]
      exact induction (store.get? id) context chain
  | render id extra next induction =>
      rw [runIn_runScript_render, keeps id extra chain]
      exact induction (runOn (nested id extra) chain).1 context chain

variable [Extension ρ]

theorem evaluate_keepsChain (key : String) (renderer : Renderer ρ) :
    EvaluationKeepsChain (evaluate nested store key renderer) := by
  intro context chain
  cases renderer with
  | reference mode target =>
      exact evaluateReference_keepsChain keeps target key mode context chain
  | template template => rw [runIn_evaluate_template]
  | supplied renderer =>
      rw [runIn_evaluate_supplied]
      exact runScript_keepsChain keeps store _ context chain

theorem evaluateKey_keepsChain (layout : Document ρ) (key : String) :
    EvaluationKeepsChain (evaluateKey nested store layout key) := by
  intro context chain
  rw [runIn_evaluateKey]
  cases (layout.get? key).bind Value.deferred? with
  | none => rfl
  | some deferred =>
      have kept := evaluate_keepsChain keeps store key deferred.renderer context chain
      dsimp only
      generalize runIn (evaluate nested store key deferred.renderer) context chain = outcome
        at kept ⊢
      obtain ⟨⟨error | value, changed⟩, after⟩ := outcome <;> exact kept

theorem evaluateKeys_keepsChain (layout : Document ρ) (keys : List String) :
    EvaluationKeepsChain (keys.forM (evaluateKey nested store layout)) := by
  induction keys with
  | nil =>
      intro context chain
      rfl
  | cons key rest induction =>
      intro context chain
      have kept := evaluateKey_keepsChain keeps store layout key context chain
      rw [runIn_forM_cons]
      generalize runIn (evaluateKey nested store layout key) context chain = outcome
        at kept ⊢
      obtain ⟨⟨error | value, changed⟩, after⟩ := outcome
      · exact kept
      · exact (induction changed after).trans kept

theorem resolve_keepsChain (merged layout : Document ρ) :
    KeepsChain (resolve nested store merged layout) := by
  intro chain
  rw [runOn_resolve]
  exact evaluateKeys_keepsChain keeps store layout merged.keys merged chain

theorem applyLayouts_keepsChain (remaining : Nat) (used : List String)
    (document : Document ρ) :
    KeepsChain (applyLayouts nested store remaining used document) := by
  induction remaining generalizing used document with
  | zero =>
      rw [applyLayouts_eq]
      cases document.layout? with
      | none => exact fun _ => rfl
      | some id =>
          dsimp only
          split
          · exact fun _ => rfl
          · cases store.get? id <;> exact fun _ => rfl
  | succ remaining induction =>
      rw [applyLayouts_eq]
      cases document.layout? with
      | none => exact fun _ => rfl
      | some id =>
          dsimp only
          split
          · exact fun _ => rfl
          · cases store.get? id with
            | none => exact fun _ => rfl
            | some layout =>
                exact (resolve_keepsChain keeps store _ layout).bind
                  fun merged => induction (id :: used) merged

theorem compose_keepsChain (start : Document ρ) (extra : Option (Document ρ)) :
    KeepsChain (compose nested store start extra) :=
  (resolve_keepsChain keeps store _ start).bind fun resolved =>
    applyLayouts_keepsChain keeps store _ _ resolved

theorem renderDocument_keepsChain (start : Document ρ) (extra : Option (Document ρ)) :
    KeepsChain (renderDocument nested store start extra) := by
  intro chain
  have kept := compose_keepsChain keeps store start extra
  rw [runOn_renderDocument]
  cases start.id? with
  | none => exact kept chain
  | some id =>
      by_cases member : id ∈ chain
      · simp only [member, if_true]
      · simp only [member, if_false]
        exact kept.within id chain

end

theorem renderStored_keepsChain [Extension ρ] (store : Store ρ) (depth : Nat)
    (id : String) (extra : Option (Document ρ)) :
    KeepsChain (renderStored store depth id extra) := by
  induction depth generalizing id extra with
  | zero =>
      intro chain
      unfold renderStored
      split <;> rfl
  | succ depth induction =>
      intro chain
      unfold renderStored
      cases store.get? id with
      | none => rfl
      | some start =>
          dsimp only
          rw [runOn_map]
          exact renderDocument_keepsChain induction store start extra chain

end Render

namespace Store

variable {ρ : Type} [Extension ρ]

theorem nested_keepsChain (store : Store ρ) (id : String)
    (extra : Option (Document ρ)) : Render.KeepsChain (store.nested id extra) :=
  Render.renderStored_keepsChain store _ id extra

theorem render_keepsChain (store : Store ρ) (request : Request ρ)
    (extra : Option (Document ρ)) : Render.KeepsChain (store.render request extra) := by
  cases request with
  | stored id => exact store.nested_keepsChain id extra
  | direct document =>
      intro chain
      rw [render, Render.runOn_map]
      exact Render.renderDocument_keepsChain store.nested_keepsChain store document extra
        chain

/-- Renders one request after the other in one scope, whatever comes of each. -/
def renderEach (store : Store ρ) : List (Request ρ × Option (Document ρ)) →
    StateM (List String) (List (Except RenderError (Option (Document ρ))))
  | [] => pure []
  | (request, extra) :: rest => do
      let outcome ← (store.render request extra).run
      let outcomes ← store.renderEach rest
      pure (outcome :: outcomes)

theorem run_renderEach (store : Store ρ)
    (requests : List (Request ρ × Option (Document ρ))) (chain : List String) :
    (store.renderEach requests).run chain =
      (requests.map fun asked => (Render.runOn (store.render asked.1 asked.2) chain).1,
        chain) := by
  induction requests with
  | nil => rfl
  | cons asked rest induction =>
      obtain ⟨request, extra⟩ := asked
      have kept := store.render_keepsChain request extra chain
      change (match Render.runOn (store.render request extra) chain with
        | (outcome, after) =>
            match (store.renderEach rest).run after with
            | (outcomes, last) => (outcome :: outcomes, last)) = _
      simp only [kept, induction, List.map_cons]

/-- Rendering leaves the chain as it found it, whatever the outcome, and so does
everything that is evaluated on the way. Requests in one scope thus have no effect
on each other. -/
theorem render_restoresChain (store : Store ρ) :
    (∀ request extra chain,
      (Render.runOn (store.render request extra) chain).2 = chain) ∧
    (∀ key renderer context chain,
      (Render.runIn (Render.evaluate store.nested store key renderer) context chain).2 =
        chain) ∧
    ∀ requests, (store.renderEach requests).run [] =
      (requests.map fun asked => store.renderAlone asked.1 asked.2, []) := by
  refine ⟨store.render_keepsChain, ?_, ?_⟩
  · intro key renderer context chain
    exact Render.evaluate_keepsChain store.nested_keepsChain store key renderer context chain
  · intro requests
    exact store.run_renderEach requests []

end Store

end Compositor
