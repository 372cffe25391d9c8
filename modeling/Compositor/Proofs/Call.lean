import Compositor.Proofs.Composition

namespace Compositor

variable {ρ : Type}

/-- A render that is asked for on a chain. -/
structure Call (ρ : Type) where
  request : Request ρ
  extra : Option (Document ρ)
  chain : List String

def Composition.nestedCall (composition : Composition ρ) (key : String) (mode : Mode)
    (target : String) : Call ρ where
  request := .stored target
  extra := Render.handedOver mode composition.current key
  chain := composition.chain

/-- The chain that a document is composed on, unless it is on the chain already. -/
def Document.chainWithin? (document : Document ρ) (chain : List String) :
    Option (List String) :=
  match document.id? with
  | none => some chain
  | some id => if id ∈ chain then none else some (chain ++ [id])

theorem Document.chainWithin?_eq_none {document : Document ρ} {chain : List String}
    (refused : document.chainWithin? chain = none) :
    ∃ id, document.id? = some id ∧ id ∈ chain := by
  unfold chainWithin? at refused
  split at refused
  · cases refused
  · rename_i id identified
    split at refused
    · exact ⟨id, identified, by assumption⟩
    · cases refused

variable [Extension ρ]

namespace Call

def outcome (store : Store ρ) (call : Call ρ) :
    Except RenderError (Option (Document ρ)) :=
  (Render.runOn (store.render call.request call.extra) call.chain).1

end Call

namespace Store

def evaluated (store : Store ρ) (key : String) (renderer : Renderer ρ)
    (context : Document ρ) (chain : List String) :
    (Except RenderError (Value ρ) × Document ρ) × List String :=
  Render.runIn (Render.evaluate store.nested store key renderer) context chain

theorem evaluated_reference (store : Store ρ) (key : String) (mode : Mode)
    (target : String) (context : Document ρ) (chain : List String) :
    store.evaluated key (.reference mode target) context chain =
      match Call.outcome store
        ⟨.stored target, Render.handedOver mode context key, chain⟩ with
      | .ok none => ((.ok (Render.missingText target), context), chain)
      | .ok (some rendered) =>
          ((.ok (Render.contentOrAll rendered), Render.takenIn mode context rendered),
            chain)
      | .error error => ((.error error, context), chain) := by
  have kept := store.nested_keepsChain target (Render.handedOver mode context key) chain
  have same : Call.outcome store
      ⟨.stored target, Render.handedOver mode context key, chain⟩ =
        (Render.runOn (store.nested target (Render.handedOver mode context key)) chain).1 :=
    rfl
  rw [evaluated, Render.runIn_evaluate_reference, Render.runIn_evaluateReference, same]
  generalize Render.runOn (store.nested target (Render.handedOver mode context key)) chain =
    run at kept ⊢
  obtain ⟨error | _ | rendered, after⟩ := run <;> cases kept <;> rfl

end Store

namespace Call

theorem evaluation_reference (store : Store ρ) (composition : Composition ρ)
    (key : String) (mode : Mode) (target : String) :
    (composition.evaluation store key (.reference mode target)).1 =
      match (composition.nestedCall key mode target).outcome store with
      | .ok none => (.ok (Render.missingText target), composition.current)
      | .ok (some rendered) =>
          (.ok (Render.contentOrAll rendered),
            Render.takenIn mode composition.current rendered)
      | .error error => (.error error, composition.current) := by
  have run := store.evaluated_reference key mode target composition.current
    composition.chain
  refine (congrArg Prod.fst run).trans ?_
  rw [Composition.nestedCall]
  split <;> rfl

theorem evaluation_reference_ok {store : Store ρ} {composition : Composition ρ}
    {key : String} {mode : Mode} {target : String} {value : Value ρ}
    {changed : Document ρ}
    (evaluated : (composition.evaluation store key (.reference mode target)).1 =
      (.ok value, changed)) :
    ((composition.nestedCall key mode target).outcome store = .ok none ∧
      value = Render.missingText target ∧ changed = composition.current) ∨
    ∃ rendered,
      (composition.nestedCall key mode target).outcome store = .ok (some rendered) ∧
      value = Render.contentOrAll rendered ∧
      changed = Render.takenIn mode composition.current rendered := by
  rw [evaluation_reference] at evaluated
  cases outcome : (composition.nestedCall key mode target).outcome store with
  | error error =>
      rw [outcome] at evaluated
      cases evaluated
  | ok found =>
      rw [outcome] at evaluated
      cases found with
      | none =>
          cases evaluated
          exact .inl ⟨rfl, rfl, rfl⟩
      | some rendered =>
          cases evaluated
          exact .inr ⟨rendered, rfl, rfl, rfl⟩

theorem evaluation_reference_error {store : Store ρ} {composition : Composition ρ}
    {key : String} {mode : Mode} {target : String} {error : RenderError}
    (evaluated : (composition.evaluation store key (.reference mode target)).1.1 =
      .error error) :
    (composition.nestedCall key mode target).outcome store = .error error := by
  rw [evaluation_reference] at evaluated
  rcases outcome : (composition.nestedCall key mode target).outcome store with
    failure | _ | rendered
  · rw [outcome] at evaluated
    cases evaluated
    rfl
  · rw [outcome] at evaluated
    cases evaluated
  · rw [outcome] at evaluated
    cases evaluated

/-- The composition comes about in the course of the call. -/
def Reaches (store : Store ρ) (call : Call ρ) (composition : Composition ρ) : Prop :=
  ∃ start chain, store.start? call.request = some start ∧
    start.chainWithin? call.chain = some chain ∧
    Composition.Steps store (.begin start call.extra chain) composition

/-- What holds of the composition at first and is kept by each of its steps holds
of it throughout the call. -/
@[elab_as_elim] theorem Reaches.invariant {store : Store ρ} {call : Call ρ}
    {motive : Composition ρ → Prop}
    (first : ∀ start chain, store.start? call.request = some start →
      start.chainWithin? call.chain = some chain →
      motive (.begin start call.extra chain))
    (preserved : ∀ composition next, call.Reaches store composition →
      Composition.Step store composition next → motive composition → motive next)
    {composition : Composition ρ} (reached : call.Reaches store composition) :
    motive composition := by
  obtain ⟨start, chain, found, enters, steps⟩ := reached
  induction steps with
  | refl => exact first start chain found enters
  | tail steps step induction =>
      exact preserved _ _ ⟨start, chain, found, enters, steps⟩ step induction

/-- The rules by which a call returns. -/
inductive Returns (store : Store ρ) (call : Call ρ) :
    Except RenderError (Option (Document ρ)) → Prop
  | missing (absent : store.start? call.request = none) :
      Returns store call (.ok none)
  | visited {start : Document ρ} {id : String}
      (found : store.start? call.request = some start)
      (identified : start.id? = some id)
      (visited : id ∈ call.chain) :
      Returns store call (.error (.recursiveReference id))
  | composed {final : Composition ρ} {outcome : Except RenderError (Document ρ)}
      (reached : call.Reaches store final)
      (stops : Composition.Stops store final outcome) :
      Returns store call (outcome.map some)

theorem outcome_of_missing {store : Store ρ} {call : Call ρ}
    (absent : store.start? call.request = none) : call.outcome store = .ok none := by
  unfold outcome
  rw [store.render_eq, absent]
  rfl

theorem outcome_of_visited {store : Store ρ} {call : Call ρ} {start : Document ρ}
    (found : store.start? call.request = some start) {id : String}
    (identified : start.id? = some id) (visited : id ∈ call.chain) :
    call.outcome store = .error (.recursiveReference id) := by
  unfold outcome
  rw [store.render_eq, found]
  dsimp only
  rw [Render.runOn_map, Render.runOn_renderDocument, identified]
  dsimp only
  rw [if_pos visited]
  rfl

theorem outcome_of_enters {store : Store ρ} {call : Call ρ} {start : Document ρ}
    (found : store.start? call.request = some start) {chain : List String}
    (enters : start.chainWithin? call.chain = some chain) :
    call.outcome store =
      (Render.runOn (Render.compose store.nested store start call.extra) chain).1.map
        some := by
  unfold outcome
  rw [store.render_eq, found]
  dsimp only
  rw [Render.runOn_map, Render.runOn_renderDocument]
  rw [Document.chainWithin?] at enters
  cases identified : start.id? with
  | none =>
      rw [identified] at enters
      cases enters
      rfl
  | some id =>
      rw [identified] at enters
      dsimp only at enters ⊢
      by_cases visited : id ∈ call.chain
      · rw [if_pos visited] at enters
        cases enters
      · rw [if_neg visited] at enters ⊢
        cases enters
        rw [Render.runOn_within]

theorem returns (store : Store ρ) (call : Call ρ) :
    call.Returns store (call.outcome store) := by
  cases found : store.start? call.request with
  | none =>
      rw [outcome_of_missing found]
      exact .missing found
  | some start =>
      cases enters : start.chainWithin? call.chain with
      | none =>
          obtain ⟨id, identified, visited⟩ := start.chainWithin?_eq_none enters
          rw [outcome_of_visited found identified visited]
          exact .visited found identified visited
      | some chain =>
          obtain ⟨final, outcome, steps, stops, run⟩ :=
            Composition.compose_runs store start call.extra chain
          rw [outcome_of_enters found enters, run]
          exact .composed ⟨start, chain, found, enters, steps⟩ stops

/-- The rules leave nothing open. -/
theorem Returns.outcome_eq {store : Store ρ} {call : Call ρ}
    {result : Except RenderError (Option (Document ρ))}
    (returns : call.Returns store result) : call.outcome store = result := by
  cases returns with
  | missing absent => exact outcome_of_missing absent
  | visited found identified visited =>
      exact outcome_of_visited found identified visited
  | composed reached stops =>
      obtain ⟨start, chain, found, enters, steps⟩ := reached
      obtain ⟨final, outcome, stepsOther, stopsOther, run⟩ :=
        Composition.compose_runs store start call.extra chain
      rw [outcome_of_enters found enters, run,
        stepsOther.outcome_unique stopsOther steps stops]

/-- The induction principle of the rules does not see which call succeeds, so the
result is set apart first. -/
theorem outcome_eq_ok {store : Store ρ} {call : Call ρ}
    {result : Option (Document ρ)} (returned : call.outcome store = .ok result) :
    (result = none ∧ store.start? call.request = none) ∨
      ∃ final rendered, result = some rendered ∧ call.Reaches store final ∧
        Composition.Stops store final (.ok rendered) := by
  have rule := call.returns store
  generalize equal : call.outcome store = outcome at rule
  rw [returned] at equal
  cases rule with
  | missing absent =>
      cases equal
      exact .inl ⟨rfl, absent⟩
  | visited => cases equal
  | @composed final outcome reached stops =>
      cases outcome with
      | error error => cases equal
      | ok document =>
          cases equal
          exact .inr ⟨final, document, rfl, reached, stops⟩

theorem exists_reaches_of_ok {store : Store ρ} {call : Call ρ}
    {rendered : Document ρ} (returned : call.outcome store = .ok (some rendered)) :
    ∃ final, call.Reaches store final ∧
      Composition.Stops store final (.ok rendered) := by
  rcases outcome_eq_ok returned with ⟨missing, -⟩ | ⟨final, document, equal, run⟩
  · cases missing
  · cases equal
    exact ⟨final, run⟩

theorem start?_eq_none_of_ok {store : Store ρ} {call : Call ρ}
    (returned : call.outcome store = .ok none) :
    store.start? call.request = none := by
  rcases outcome_eq_ok returned with ⟨-, absent⟩ | ⟨final, document, equal, -⟩
  · exact absent
  · cases equal

theorem layout?_eq_none_of_ok {store : Store ρ} {call : Call ρ}
    {rendered : Document ρ} (returned : call.outcome store = .ok (some rendered)) :
    rendered.layout? = none := by
  obtain ⟨final, -, stops⟩ := exists_reaches_of_ok returned
  cases stops with
  | finished _ ends => exact ends

end Call

end Compositor
