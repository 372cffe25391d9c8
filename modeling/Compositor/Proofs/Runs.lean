import Compositor.Render

namespace Compositor.Render

variable {ρ α β : Type}

/-- What an action gives on a chain, and the chain after it. -/
def runOn (action : RenderM α) (chain : List String) :
    Except RenderError α × List String :=
  action.run chain

/-- What an evaluation gives in a document, the document that it leaves, and the
chain after it. -/
def runIn (action : EvaluateM ρ α) (context : Document ρ) (chain : List String) :
    (Except RenderError α × Document ρ) × List String :=
  action.run context chain

@[simp] theorem runOn_pure (value : α) (chain : List String) :
    runOn (pure value) chain = (.ok value, chain) := rfl

@[simp] theorem runOn_throw (error : RenderError) (chain : List String) :
    runOn (throw error : RenderM α) chain = (.error error, chain) := rfl

theorem runOn_bind (action : RenderM α) (next : α → RenderM β)
    (chain : List String) :
    runOn (action >>= next) chain =
      match runOn action chain with
      | (.ok value, after) => runOn (next value) after
      | (.error error, after) => (.error error, after) := by
  change (match runOn action chain with
    | (result, after) => runOn (ExceptT.mk (ExceptT.bindCont next result)) after) = _
  generalize runOn action chain = outcome
  obtain ⟨result, after⟩ := outcome
  cases result <;> rfl

@[simp] theorem runOn_map (f : α → β) (action : RenderM α) (chain : List String) :
    runOn (f <$> action) chain =
      ((runOn action chain).1.map f, (runOn action chain).2) := by
  unfold runOn
  rw [ExceptT.run_map]
  rfl

@[simp] theorem runOn_within (id : String) (action : RenderM α)
    (chain : List String) :
    runOn (within id action) chain =
      ((runOn action (chain ++ [id])).1,
        (runOn action (chain ++ [id])).2.dropLast) := rfl

@[simp] theorem runIn_pure (value : α) (context : Document ρ)
    (chain : List String) :
    runIn (pure value) context chain = ((.ok value, context), chain) := rfl

theorem runIn_bind (action : EvaluateM ρ α) (next : α → EvaluateM ρ β)
    (context : Document ρ) (chain : List String) :
    runIn (action >>= next) context chain =
      match runIn action context chain with
      | ((.ok value, changed), after) => runIn (next value) changed after
      | ((.error error, changed), after) => ((.error error, changed), after) := by
  change (match runIn action context chain with
    | ((result, changed), after) =>
        runIn (ExceptT.mk (ExceptT.bindCont next result)) changed after) = _
  generalize runIn action context chain = outcome
  obtain ⟨⟨result, changed⟩, after⟩ := outcome
  cases result <;> rfl

theorem runIn_nestedRender (nested : Nested ρ) (target : String)
    (extra : Option (Document ρ)) (context : Document ρ) (chain : List String) :
    runIn (nestedRender nested target extra) context chain =
      (((runOn (nested target extra) chain).1, context),
        (runOn (nested target extra) chain).2) := rfl

def handedOver (mode : Mode) (context : Document ρ) (key : String) :
    Option (Document ρ) :=
  match mode with
  | .partialView => some (visibleContext context key)
  | .mixin | .embed => none

/-- What a reference makes of the document that it is evaluated in. -/
def takenIn (mode : Mode) (context rendered : Document ρ) : Document ρ :=
  match mode with
  | .mixin => context.overlay (rendered.erase Document.contentKey)
  | .partialView | .embed => context

theorem runIn_evaluateReference (nested : Nested ρ) (target key : String)
    (mode : Mode) (context : Document ρ) (chain : List String) :
    runIn (evaluateReference nested target key mode) context chain =
      match runOn (nested target (handedOver mode context key)) chain with
      | (.ok none, after) => ((.ok (missingText target), context), after)
      | (.ok (some rendered), after) =>
          ((.ok (contentOrAll rendered), takenIn mode context rendered), after)
      | (.error error, after) => ((.error error, context), after) := by
  have following (extra : Option (Document ρ))
      (next : Option (Document ρ) → EvaluateM ρ (Value ρ)) :
      runIn (nestedRender nested target extra >>= next) context chain =
        match runOn (nested target extra) chain with
        | (.ok found, after) => runIn (next found) context after
        | (.error error, after) => ((.error error, context), after) := by
    rw [runIn_bind, runIn_nestedRender]
    generalize runOn (nested target extra) chain = outcome
    obtain ⟨result, after⟩ := outcome
    cases result <;> rfl
  cases mode with
  | mixin =>
      rw [handedOver]
      refine (following none _).trans ?_
      obtain ⟨error | _ | rendered, after⟩ := runOn (nested target none) chain <;>
        rfl
  | partialView =>
      rw [handedOver]
      refine (following (some (visibleContext context key)) _).trans ?_
      obtain ⟨error | _ | rendered, after⟩ :=
        runOn (nested target (some (visibleContext context key))) chain <;> rfl
  | embed =>
      rw [handedOver]
      refine (following none _).trans ?_
      obtain ⟨error | _ | rendered, after⟩ := runOn (nested target none) chain <;>
        rfl

theorem runIn_forM_cons (action : String → EvaluateM ρ Unit) (key : String)
    (rest : List String) (context : Document ρ) (chain : List String) :
    runIn ((key :: rest).forM action) context chain =
      match runIn (action key) context chain with
      | ((.ok _, changed), after) => runIn (rest.forM action) changed after
      | ((.error error, changed), after) => ((.error error, changed), after) := by
  change runIn (action key >>= fun _ => rest.forM action) context chain = _
  rw [runIn_bind]
  obtain ⟨⟨error | value, changed⟩, after⟩ := runIn (action key) context chain <;>
    rfl

/-! A script, step by step. -/

section

variable (nested : Nested ρ) (store : Store ρ) (context : Document ρ)
  (chain : List String)

theorem runIn_runScript_give (value : Value ρ) :
    runIn (runScript nested store (.give value)) context chain =
      ((.ok value, context), chain) := rfl

theorem runIn_runScript_fail (error : RenderError) :
    runIn (runScript nested store (.fail error)) context chain =
      ((.error error, context), chain) := rfl

theorem runIn_runScript_put (changed : Document ρ) (next : Script ρ) :
    runIn (runScript nested store (.put changed next)) context chain =
      runIn (runScript nested store next) changed chain := rfl

theorem runIn_runScript_look (id : String) (next : Option (Document ρ) → Script ρ) :
    runIn (runScript nested store (.look id next)) context chain =
      runIn (runScript nested store (next (store.get? id))) context chain := rfl

theorem runIn_runScript_render (id : String) (extra : Option (Document ρ))
    (next : Except RenderError (Option (Document ρ)) → Script ρ) :
    runIn (runScript nested store (.render id extra next)) context chain =
      runIn (runScript nested store (next (runOn (nested id extra) chain).1)) context
        (runOn (nested id extra) chain).2 := rfl

end

/-! The same for the functions that render. -/

section

variable [Extension ρ]

theorem runIn_evaluate_reference (nested : Nested ρ) (store : Store ρ)
    (key target : String) (mode : Mode) (context : Document ρ) (chain : List String) :
    runIn (evaluate nested store key (.reference mode target)) context chain =
      runIn (evaluateReference nested target key mode) context chain := rfl

theorem runIn_evaluate_template (nested : Nested ρ) (store : Store ρ) (key : String)
    (template : Template) (context : Document ρ) (chain : List String) :
    runIn (evaluate nested store key (.template template)) context chain =
      ((.ok (.string (template.apply context)), context), chain) := rfl

theorem runIn_evaluate_supplied (nested : Nested ρ) (store : Store ρ) (key : String)
    (renderer : ρ) (context : Document ρ) (chain : List String) :
    runIn (evaluate nested store key (.supplied renderer)) context chain =
      runIn (runScript nested store (Extension.render renderer chain context key)) context
        chain := rfl

theorem runIn_evaluateKey (nested : Nested ρ) (store : Store ρ) (layout : Document ρ)
    (key : String) (context : Document ρ) (chain : List String) :
    runIn (evaluateKey nested store layout key) context chain =
      match (layout.get? key).bind Value.deferred? with
      | none => ((.ok (), context), chain)
      | some deferred =>
          match runIn (evaluate nested store key deferred.renderer) context chain with
          | ((.ok value, changed), after) =>
              ((.ok (), changed.insert key value), after)
          | ((.error error, changed), after) => ((.error error, changed), after) := by
  unfold evaluateKey
  cases (layout.get? key).bind Value.deferred? with
  | none => rfl
  | some deferred =>
      refine (runIn_bind _ _ context chain).trans ?_
      dsimp only
      obtain ⟨⟨error | value, changed⟩, after⟩ :=
        runIn (evaluate nested store key deferred.renderer) context chain <;> rfl

theorem runOn_resolve (nested : Nested ρ) (store : Store ρ) (merged layout : Document ρ)
    (chain : List String) :
    runOn (resolve nested store merged layout) chain =
      match runIn (merged.keys.forM (evaluateKey nested store layout)) merged chain with
      | ((result, resolved), after) => (result.map fun _ => resolved, after) := rfl

theorem applyLayouts_eq (nested : Nested ρ) (store : Store ρ) (remaining : Nat)
    (used : List String) (document : Document ρ) :
    applyLayouts nested store remaining used document =
      match document.layout? with
      | none => pure document
      | some id =>
          if id ∈ used then throw (.recursiveLayout id)
          else
            match store.get? id with
            | none => throw (.layoutNotFound id)
            | some layout =>
                match remaining with
                | 0 => throw (.recursiveLayout id)
                | remaining + 1 =>
                    resolve nested store (merge document layout) layout >>=
                      applyLayouts nested store remaining (id :: used) := by
  unfold applyLayouts
  cases document.layout? with
  | none => rfl
  | some id =>
      dsimp only
      by_cases member : id ∈ used
      · rw [if_pos member, if_pos member]
      · rw [if_neg member, if_neg member]
        cases store.get? id with
        | none => rfl
        | some layout => cases remaining <;> rfl

theorem runOn_renderDocument (nested : Nested ρ) (store : Store ρ)
    (start : Document ρ) (extra : Option (Document ρ)) (chain : List String) :
    runOn (renderDocument nested store start extra) chain =
      match start.id? with
      | none => runOn (compose nested store start extra) chain
      | some id =>
          if id ∈ chain then (.error (.recursiveReference id), chain)
          else runOn (within id (compose nested store start extra)) chain := by
  unfold renderDocument
  cases start.id? with
  | none => rfl
  | some id =>
      refine (runOn_bind _ _ chain).trans ?_
      change runOn (do
        if id ∈ chain then throw (.recursiveReference id)
        within id (compose nested store start extra)) chain = _
      by_cases member : id ∈ chain
      · simp only [member, if_true]
        rfl
      · simp only [member, if_false]

end

end Compositor.Render
