import Mathlib.Data.List.Perm.Subperm
import Mathlib.Logic.Relation
import Compositor.Proofs.Deferral
import Compositor.Proofs.Depth

namespace Compositor

variable {ρ : Type}

/-- A document in the place of a layout, with the values that its deferred
entries have been evaluated to so far. -/
structure Layer (ρ : Type) where
  document : Document ρ
  values : Entries (Value ρ) := []

def Layer.record (layer : Layer ρ) (key : String) (value : Value ρ) : Layer ρ :=
  { layer with values := layer.values.insert key value }

/-- A document being composed: the layers, the last merged at the top; the
identifiers of the layouts among them; the keys still to be visited; and the
document as it has become so far, with the chain that it is rendered on. -/
structure Composition (ρ : Type) where
  top : Layer ρ
  below : List (Layer ρ) := []
  used : List String := []
  pending : List String
  current : Document ρ
  chain : List String

namespace Composition

/-- The start takes the place of a layout of the requested document. -/
def begin (start : Document ρ) (extra : Option (Document ρ))
    (chain : List String) : Composition ρ :=
  let requested := start.overlay (extra.getD .empty)
  { top := { document := start }
    pending := requested.keys
    current := requested
    chain }

def skipKey (composition : Composition ρ) (rest : List String) : Composition ρ :=
  { composition with pending := rest }

def storeValue (composition : Composition ρ) (key : String) (value : Value ρ)
    (changed : Document ρ) (rest : List String) (chain : List String) :
    Composition ρ :=
  { composition with
    top := composition.top.record key value
    pending := rest
    current := changed.insert key value
    chain }

def mergeInto (composition : Composition ρ) (id : String) (layout : Document ρ) :
    Composition ρ :=
  let merged := Render.merge composition.current layout
  { composition with
    top := { document := layout }
    below := composition.top :: composition.below
    used := id :: composition.used
    pending := merged.keys
    current := merged }

/-- Every layout was found under its identifier, and none twice. -/
structure UsesOnce (store : Store ρ) (composition : Composition ρ) : Prop where
  distinct : composition.used.Nodup
  indexed : composition.used ⊆ store.ids

theorem begin_usesOnce (store : Store ρ) (start : Document ρ)
    (extra : Option (Document ρ)) (chain : List String) :
    UsesOnce store (begin start extra chain) :=
  ⟨List.nodup_nil, List.nil_subset _⟩

theorem UsesOnce.length_le {store : Store ρ} {composition : Composition ρ}
    (uses : UsesOnce store composition) :
    composition.used.length ≤ store.ids.length :=
  (List.subperm_of_subset uses.distinct uses.indexed).length_le

variable [Extension ρ]

def evaluation (store : Store ρ) (composition : Composition ρ) (key : String)
    (renderer : Renderer ρ) : (Except RenderError (Value ρ) × Document ρ) × List String :=
  Render.runIn (Render.evaluate store.nested store key renderer) composition.current
    composition.chain

/-- The next key is visited, or the next layout is taken. -/
inductive Step (store : Store ρ) (composition : Composition ρ) : Composition ρ → Prop
  | skip {key : String} {rest : List String}
      (next : composition.pending = key :: rest)
      (concrete : ∀ deferred, ¬ composition.top.document.Defers key deferred) :
      Step store composition (composition.skipKey rest)
  | evaluate {key : String} {rest : List String} {deferred : Deferred ρ}
      {value : Value ρ} {changed : Document ρ} {after : List String}
      (next : composition.pending = key :: rest)
      (defers : composition.top.document.Defers key deferred)
      (evaluated : composition.evaluation store key deferred.renderer =
        ((.ok value, changed), after)) :
      Step store composition (composition.storeValue key value changed rest after)
  | merge {id : String} {layout : Document ρ}
      (visited : composition.pending = [])
      (names : composition.current.layout? = some id)
      (unused : id ∉ composition.used)
      (found : store.get? id = some layout) :
      Step store composition (composition.mergeInto id layout)

/-- What a composition that makes no further step ends in. -/
inductive Stops (store : Store ρ) (composition : Composition ρ) :
    Except RenderError (Document ρ) → Prop
  | finished (visited : composition.pending = [])
      (ends : composition.current.layout? = none) :
      Stops store composition (.ok composition.current)
  | evaluationFailed {key : String} {rest : List String} {deferred : Deferred ρ}
      {error : RenderError} {changed : Document ρ} {after : List String}
      (next : composition.pending = key :: rest)
      (defers : composition.top.document.Defers key deferred)
      (evaluated : composition.evaluation store key deferred.renderer =
        ((.error error, changed), after)) :
      Stops store composition (.error error)
  | layoutUsed {id : String}
      (visited : composition.pending = [])
      (names : composition.current.layout? = some id)
      (used : id ∈ composition.used) :
      Stops store composition (.error (.recursiveLayout id))
  | layoutMissing {id : String}
      (visited : composition.pending = [])
      (names : composition.current.layout? = some id)
      (unused : id ∉ composition.used)
      (missing : store.get? id = none) :
      Stops store composition (.error (.layoutNotFound id))

abbrev Steps (store : Store ρ) : Composition ρ → Composition ρ → Prop :=
  Relation.ReflTransGen (Step store)

theorem Step.usesOnce {store : Store ρ} {composition next : Composition ρ}
    (step : Step store composition next) (uses : UsesOnce store composition) :
    UsesOnce store next := by
  cases step with
  | skip => exact ⟨uses.distinct, uses.indexed⟩
  | evaluate => exact ⟨uses.distinct, uses.indexed⟩
  | merge _ _ unused found =>
      exact ⟨List.nodup_cons.mpr ⟨unused, uses.distinct⟩,
        List.cons_subset.mpr ⟨Store.mem_ids_of_get? found, uses.indexed⟩⟩

theorem Steps.usesOnce {store : Store ρ} {composition next : Composition ρ}
    (steps : Steps store composition next) (uses : UsesOnce store composition) :
    UsesOnce store next := by
  induction steps with
  | refl => exact uses
  | tail _ step induction => exact step.usesOnce induction

theorem Step.chain_eq {store : Store ρ} {composition next : Composition ρ}
    (step : Step store composition next) : next.chain = composition.chain := by
  cases step with
  | skip => rfl
  | @evaluate key _ deferred _ _ _ _ _ evaluated =>
      have kept := Render.evaluate_keepsChain store.nested_keepsChain store key
        deferred.renderer composition.current composition.chain
      exact (congrArg Prod.snd evaluated).symm.trans kept
  | merge => rfl

theorem Steps.chain_eq {store : Store ρ} {composition next : Composition ρ}
    (steps : Steps store composition next) : next.chain = composition.chain := by
  induction steps with
  | refl => rfl
  | tail _ step induction => exact step.chain_eq.trans induction

/-! A composition runs as `compose` does, without a bound on its merges. -/

def visitedAll (composition : Composition ρ) (values : Entries (Value ρ))
    (current : Document ρ) (chain : List String) : Composition ρ :=
  { composition with
    top := { composition.top with values }
    pending := []
    current
    chain }

/-- Visiting the keys ends with a composition that has none left, or with one
that cannot go on. -/
theorem visits_keys (store : Store ρ) (keys : List String)
    (composition : Composition ρ) (pending : composition.pending = keys) :
    (∃ values current after,
      Render.runIn (keys.forM (Render.evaluateKey store.nested store composition.top.document))
        composition.current composition.chain = ((.ok (), current), after) ∧
      Steps store composition (composition.visitedAll values current after)) ∨
    ∃ error final current after,
      Render.runIn (keys.forM (Render.evaluateKey store.nested store composition.top.document))
        composition.current composition.chain = ((.error error, current), after) ∧
      Steps store composition final ∧ Stops store final (.error error) := by
  induction keys generalizing composition with
  | nil =>
      refine .inl ⟨composition.top.values, composition.current, composition.chain,
        rfl, ?_⟩
      cases composition
      cases pending
      exact .refl
  | cons key rest induction =>
      rw [Render.runIn_forM_cons, Render.runIn_evaluateKey]
      cases found : (composition.top.document.get? key).bind Value.deferred? with
      | none =>
          have concrete : ∀ deferred, ¬ composition.top.document.Defers key deferred := by
            intro deferred defers
            rw [Document.deferred?_eq_some.mpr defers] at found
            cases found
          have step : Step store composition (composition.skipKey rest) :=
            .skip pending concrete
          rcases induction (composition.skipKey rest) rfl with
            ⟨values, current, after, run, steps⟩ |
            ⟨error, final, current, after, run, steps, stops⟩
          · exact .inl ⟨values, current, after, run, .head step steps⟩
          · exact .inr ⟨error, final, current, after, run, .head step steps, stops⟩
      | some deferred =>
          have defers := Document.deferred?_eq_some.mp found
          dsimp only
          cases evaluated : composition.evaluation store key deferred.renderer with
          | mk result after =>
              rw [evaluation] at evaluated
              rw [evaluated]
              obtain ⟨error | value, changed⟩ := result
              · exact .inr ⟨error, composition, changed, after, rfl, .refl,
                  .evaluationFailed pending defers evaluated⟩
              · have step : Step store composition
                    (composition.storeValue key value changed rest after) :=
                  .evaluate pending defers evaluated
                rcases induction
                    (composition.storeValue key value changed rest after) rfl with
                  ⟨values, current, last, run, steps⟩ |
                  ⟨error, final, current, last, run, steps, stops⟩
                · exact .inl ⟨values, current, last, run, .head step steps⟩
                · exact .inr ⟨error, final, current, last, run, .head step steps,
                    stops⟩

theorem resolves (store : Store ρ) (composition : Composition ρ)
    (pending : composition.pending = composition.current.keys) :
    (∃ values current after,
      Render.runOn (Render.resolve store.nested store composition.current
        composition.top.document) composition.chain = (.ok current, after) ∧
      Steps store composition (composition.visitedAll values current after)) ∨
    ∃ error final after,
      Render.runOn (Render.resolve store.nested store composition.current
        composition.top.document) composition.chain = (.error error, after) ∧
      Steps store composition final ∧ Stops store final (.error error) := by
  rw [Render.runOn_resolve]
  rcases visits_keys store _ composition pending with
    ⟨values, current, after, run, steps⟩ |
    ⟨error, final, current, after, run, steps, stops⟩
  · rw [run]
    exact .inl ⟨values, current, after, rfl, steps⟩
  · rw [run]
    exact .inr ⟨error, final, after, rfl, steps, stops⟩

/-- With all keys visited, either the layout that is named cannot be taken, or
none is named, or it is merged. -/
theorem stops_or_merges (store : Store ρ) (remaining : Nat)
    {composition : Composition ρ} (visited : composition.pending = []) :
    (∃ outcome, Stops store composition outcome ∧
      (Render.runOn (Render.applyLayouts store.nested store remaining
        composition.used composition.current) composition.chain).1 = outcome) ∨
    ∃ id layout, composition.current.layout? = some id ∧
      id ∉ composition.used ∧ store.get? id = some layout := by
  rw [Render.applyLayouts_eq]
  cases names : composition.current.layout? with
  | none => exact .inl ⟨_, .finished visited names, rfl⟩
  | some id =>
      dsimp only
      by_cases used : id ∈ composition.used
      · rw [if_pos used]
        exact .inl ⟨_, .layoutUsed visited names used, rfl⟩
      · rw [if_neg used]
        cases found : store.get? id with
        | none => exact .inl ⟨_, .layoutMissing visited names used found, rfl⟩
        | some layout => exact .inr ⟨id, layout, rfl, used, found⟩

/-- The bound on the merges is never what ends a composition. -/
theorem follows_layouts (store : Store ρ) (remaining : Nat)
    (composition : Composition ρ) (visited : composition.pending = [])
    (uses : UsesOnce store composition)
    (enough : store.ids.length ≤ remaining + composition.used.length) :
    ∃ final outcome, Steps store composition final ∧ Stops store final outcome ∧
      (Render.runOn (Render.applyLayouts store.nested store remaining
        composition.used composition.current) composition.chain).1 = outcome := by
  induction remaining generalizing composition with
  | zero =>
      rcases stops_or_merges store 0 visited with
        ⟨outcome, stops, run⟩ | ⟨id, layout, names, unused, found⟩
      · exact ⟨composition, outcome, .refl, stops, run⟩
      · have merge := Step.merge visited names unused found
        -- One more layout would make more of them than there are identifiers.
        have bound := (merge.usesOnce uses).length_le
        simp only [mergeInto, List.length_cons] at bound
        omega
  | succ remaining induction =>
      rcases stops_or_merges store (remaining + 1) visited with
        ⟨outcome, stops, run⟩ | ⟨id, layout, names, unused, found⟩
      · exact ⟨composition, outcome, .refl, stops, run⟩
      · have merge := Step.merge visited names unused found
        have unfolded : Render.applyLayouts store.nested store (remaining + 1)
            composition.used composition.current =
            Render.resolve store.nested store (Render.merge composition.current layout)
              layout >>=
              Render.applyLayouts store.nested store remaining
                (id :: composition.used) := by
          rw [Render.applyLayouts_eq, names]
          simp only [unused, if_false, found]
        rw [unfolded, Render.runOn_bind]
        rcases resolves store (composition.mergeInto id layout) rfl with
          ⟨values, current, after, run, steps⟩ |
          ⟨error, final, after, run, steps, stops⟩
        · obtain ⟨final, outcome, rest, stops, result⟩ :=
            induction
              ((composition.mergeInto id layout).visitedAll values current after)
              rfl (Steps.usesOnce (.head merge steps) uses) (by
                simp only [visitedAll, mergeInto, List.length_cons]
                omega)
          refine ⟨final, outcome, .head merge (steps.trans rest), stops, ?_⟩
          simp only [mergeInto] at run
          rw [run]
          exact result
        · refine ⟨final, .error error, .head merge steps, stops, ?_⟩
          simp only [mergeInto] at run
          rw [run]

theorem compose_runs (store : Store ρ) (start : Document ρ)
    (extra : Option (Document ρ)) (chain : List String) :
    ∃ final outcome, Steps store (begin start extra chain) final ∧
      Stops store final outcome ∧
      (Render.runOn (Render.compose store.nested store start extra) chain).1 =
        outcome := by
  have unfolded : Render.compose store.nested store start extra =
      Render.resolve store.nested store (start.overlay (extra.getD .empty)) start >>=
        Render.applyLayouts store.nested store store.index.length [] := rfl
  rw [unfolded, Render.runOn_bind]
  rcases resolves store (begin start extra chain) rfl with
    ⟨values, current, after, run, steps⟩ |
    ⟨error, final, after, run, steps, stops⟩
  · obtain ⟨final, outcome, rest, stops, result⟩ :=
      follows_layouts store store.index.length
        ((begin start extra chain).visitedAll values current after)
        rfl (steps.usesOnce (begin_usesOnce store start extra chain)) (by
          simp [Store.ids, Entries.keys])
    refine ⟨final, outcome, steps.trans rest, stops, ?_⟩
    simp only [begin] at run
    rw [run]
    exact result
  · refine ⟨final, .error error, steps, stops, ?_⟩
    simp only [begin] at run
    rw [run]

/-! A composition can go on in one way only. -/

/-- The composition that comes next, or else what is given in the end. -/
def next (store : Store ρ) (composition : Composition ρ) :
    Composition ρ ⊕ Except RenderError (Document ρ) :=
  match composition.pending with
  | key :: rest =>
      match (composition.top.document.get? key).bind Value.deferred? with
      | none => .inl (composition.skipKey rest)
      | some deferred =>
          match composition.evaluation store key deferred.renderer with
          | ((.ok value, changed), after) =>
              .inl (composition.storeValue key value changed rest after)
          | ((.error error, _), _) => .inr (.error error)
  | [] =>
      match composition.current.layout? with
      | none => .inr (.ok composition.current)
      | some id =>
          if id ∈ composition.used then .inr (.error (.recursiveLayout id))
          else
            match store.get? id with
            | none => .inr (.error (.layoutNotFound id))
            | some layout => .inl (composition.mergeInto id layout)

theorem Step.next_eq {store : Store ρ} {composition following : Composition ρ}
    (step : Step store composition following) :
    composition.next store = .inl following := by
  cases step with
  | @skip key rest pending concrete =>
      have unevaluated :
          (composition.top.document.get? key).bind Value.deferred? = none := by
        rw [Option.eq_none_iff_forall_ne_some]
        intro deferred found
        exact concrete deferred (Document.deferred?_eq_some.mp found)
      simp [next, pending, unevaluated]
  | evaluate pending defers evaluated =>
      simp [next, pending, Document.deferred?_eq_some.mpr defers, evaluated]
  | merge visited names unused found => simp [next, visited, names, unused, found]

theorem Stops.next_eq {store : Store ρ} {composition : Composition ρ}
    {outcome : Except RenderError (Document ρ)}
    (stops : Stops store composition outcome) :
    composition.next store = .inr outcome := by
  cases stops with
  | finished visited ends => simp [next, visited, ends]
  | evaluationFailed pending defers evaluated =>
      simp [next, pending, Document.deferred?_eq_some.mpr defers, evaluated]
  | layoutUsed visited names used => simp [next, visited, names, used]
  | layoutMissing visited names unused missing =>
      simp [next, visited, names, unused, missing]

theorem step_rightUnique (store : Store ρ) : Relator.RightUnique (Step store) := by
  intro composition following other first second
  exact Sum.inl.inj (first.next_eq.symm.trans second.next_eq)

theorem Stops.not_step {store : Store ρ} {composition following : Composition ρ}
    {outcome : Except RenderError (Document ρ)}
    (stops : Stops store composition outcome) : ¬ Step store composition following := by
  intro step
  cases stops.next_eq.symm.trans step.next_eq

theorem Stops.eq_of_steps {store : Store ρ} {composition following : Composition ρ}
    {outcome : Except RenderError (Document ρ)}
    (stops : Stops store composition outcome)
    (steps : Steps store composition following) : following = composition := by
  cases steps using Relation.ReflTransGen.head_induction_on with
  | refl => rfl
  | head step => exact absurd step stops.not_step

theorem Steps.outcome_unique {store : Store ρ} {composition final last : Composition ρ}
    {outcome other : Except RenderError (Document ρ)}
    (steps : Steps store composition final) (stops : Stops store final outcome)
    (stepsOther : Steps store composition last) (stopsOther : Stops store last other) :
    outcome = other := by
  have same : last = final := by
    rcases Relation.ReflTransGen.total_of_right_unique (step_rightUnique store) steps
      stepsOther with onward | onward
    · exact stops.eq_of_steps onward
    · exact (stopsOther.eq_of_steps onward).symm
  subst same
  exact Sum.inr.inj (stops.next_eq.symm.trans stopsOther.next_eq)

end Composition

end Compositor
