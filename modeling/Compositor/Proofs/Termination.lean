import Mathlib.Data.List.Nodup
import Compositor.Proofs.Call

namespace Compositor

variable {ρ : Type}

/-- A document that is given directly may add an identifier of its own. -/
def Request.additional : Request ρ → Nat
  | .stored _ => 0
  | .direct _ => 1

theorem Document.chainWithin?_eq_some {document : Document ρ}
    {chain within : List String} (enters : document.chainWithin? chain = some within) :
    (document.id? = none ∧ within = chain) ∨
      ∃ id, document.id? = some id ∧ id ∉ chain ∧ within = chain ++ [id] := by
  unfold chainWithin? at enters
  split at enters
  · rename_i anonymous
    exact .inl ⟨anonymous, (Option.some.inj enters).symm⟩
  · rename_i id identified
    split at enters
    · cases enters
    · rename_i fresh
      exact .inr ⟨id, identified, fresh, (Option.some.inj enters).symm⟩

namespace Call

/-- Twice the identifiers that are left, and one for a document that is given
directly: it may leave the chain as it is, but only once. -/
def weight (store : Store ρ) (call : Call ρ) : Nat :=
  2 * store.unvisited call.chain + call.request.additional

/-- The chain has no repetition, and it is no longer than the identifiers on it
and one more. -/
structure Bounded (store : Store ρ) (call : Call ρ) : Prop where
  distinct : call.chain.Nodup
  length_le : call.chain.length + store.unvisited call.chain +
    call.request.additional ≤ 1 + store.ids.length

theorem bounded_of_empty_chain (store : Store ρ) (request : Request ρ)
    (extra : Option (Document ρ)) : Bounded store ⟨request, extra, []⟩ where
  distinct := List.nodup_nil
  length_le := by
    have bound := store.unvisited_le []
    cases request <;> simp only [Request.additional, List.length_nil] <;> omega

end Call

variable [Extension ρ]

namespace Composition

theorem Step.measure_lt {store : Store ρ} {composition next : Composition ρ}
    (step : Step store composition next) (uses : UsesOnce store composition) :
    Prod.Lex (· < ·) (· < ·)
      (store.ids.length - next.used.length, next.pending.length)
      (store.ids.length - composition.used.length, composition.pending.length) := by
  have bound := (step.usesOnce uses).length_le
  cases step with
  | skip pending =>
      rw [pending]
      exact .right _ (Nat.lt_succ_self _)
  | evaluate pending =>
      rw [pending]
      exact .right _ (Nat.lt_succ_self _)
  | merge =>
      refine .left _ _ ?_
      simp only [mergeInto, List.length_cons] at bound ⊢
      omega

theorem UsesOnce.acc {store : Store ρ} {composition : Composition ρ}
    (uses : UsesOnce store composition) :
    Acc (fun next current => Step store current next) composition := by
  have wellFounded := InvImage.wf
    (fun current : Composition ρ =>
      (store.ids.length - current.used.length, current.pending.length))
    (Prod.lex Nat.lt_wfRel Nat.lt_wfRel).wf
  induction composition using wellFounded.induction with
  | _ composition induction =>
      constructor
      intro next step
      exact induction next (step.measure_lt uses) (step.usesOnce uses)

end Composition

namespace Call

/-- While a document is composed, what it defers under the next key refers to a
document, which is rendered on the chain as it is then. A supplied renderer may ask
for any document there. -/
inductive Asks (store : Store ρ) (outer : Call ρ) : Call ρ → Prop
  | reference {composition : Composition ρ} {key : String} {rest : List String}
      {mode : Mode} {target : String} {label : Nat}
      (reached : outer.Reaches store composition)
      (pending : composition.pending = key :: rest)
      (defers : composition.top.document.Defers key
        { renderer := .reference mode target, label }) :
      Asks store outer (composition.nestedCall key mode target)
  | supplied {composition : Composition ρ} {key : String} {rest : List String}
      {renderer : ρ} {label : Nat}
      (reached : outer.Reaches store composition)
      (pending : composition.pending = key :: rest)
      (defers : composition.top.document.Defers key
        { renderer := .supplied renderer, label })
      (target : String) (extra : Option (Document ρ)) :
      Asks store outer ⟨.stored target, extra, composition.chain⟩

theorem Reaches.usesOnce {store : Store ρ} {call : Call ρ}
    {composition : Composition ρ} (reached : call.Reaches store composition) :
    composition.UsesOnce store :=
  reached.invariant (fun start chain _ _ => Composition.begin_usesOnce store start _ chain)
    fun _ _ _ step uses => step.usesOnce uses

theorem Reaches.enters {store : Store ρ} {call : Call ρ}
    {composition : Composition ρ} (reached : call.Reaches store composition) :
    ∃ start, store.start? call.request = some start ∧
      start.chainWithin? call.chain = some composition.chain := by
  obtain ⟨start, chain, found, enters, steps⟩ := reached
  exact ⟨start, found, by rw [steps.chain_eq]; exact enters⟩

theorem Reaches.chain_nodup {store : Store ρ} {call : Call ρ}
    {composition : Composition ρ} (reached : call.Reaches store composition)
    (distinct : call.chain.Nodup) : composition.chain.Nodup := by
  obtain ⟨start, -, enters⟩ := reached.enters
  rcases Document.chainWithin?_eq_some enters with
    ⟨-, within⟩ | ⟨id, -, fresh, within⟩
  · rwa [within]
  · rw [within]
    rw [← List.concat_eq_append]
    exact List.Nodup.concat fresh distinct

theorem Reaches.chain_of_stored {store : Store ρ} {call : Call ρ}
    {composition : Composition ρ} (reached : call.Reaches store composition)
    {id : String} (asked : call.request = .stored id) :
    id ∈ store.ids ∧ id ∉ call.chain ∧ composition.chain = call.chain ++ [id] := by
  obtain ⟨start, found, enters⟩ := reached.enters
  rw [asked] at found
  have named : start.id? = some id := Store.id?_of_get? found
  rcases Document.chainWithin?_eq_some enters with
    ⟨anonymous, -⟩ | ⟨other, identified, fresh, within⟩
  · rw [named] at anonymous
    cases anonymous
  · obtain rfl : id = other := Option.some.inj (named.symm.trans identified)
    exact ⟨Store.mem_ids_of_get? found, fresh, within⟩

/-- What the chain grows by is no longer unvisited, except for the identifier of
a document that is given directly. -/
theorem Reaches.length_add_unvisited_le {store : Store ρ} {call : Call ρ}
    {composition : Composition ρ} (reached : call.Reaches store composition) :
    composition.chain.length + store.unvisited composition.chain ≤
      call.chain.length + store.unvisited call.chain + call.request.additional := by
  cases kind : call.request with
  | stored id =>
      obtain ⟨indexed, fresh, within⟩ := reached.chain_of_stored kind
      have fewer := Store.unvisited_append_lt indexed fresh
      rw [within, List.length_append, List.length_singleton]
      simp only [Request.additional]
      omega
  | direct document =>
      obtain ⟨start, -, enters⟩ := reached.enters
      simp only [Request.additional]
      rcases Document.chainWithin?_eq_some enters with
        ⟨-, within⟩ | ⟨id, -, -, within⟩
      · rw [within]
        omega
      · have grown := store.unvisited_append_le call.chain [id]
        rw [within, List.length_append, List.length_singleton]
        omega

theorem Reaches.unvisited_lt_weight {store : Store ρ} {call : Call ρ}
    {composition : Composition ρ} (reached : call.Reaches store composition) :
    2 * store.unvisited composition.chain < call.weight store := by
  unfold weight
  cases kind : call.request with
  | stored id =>
      obtain ⟨indexed, fresh, within⟩ := reached.chain_of_stored kind
      have fewer := Store.unvisited_append_lt indexed fresh
      rw [within]
      simp only [Request.additional]
      omega
  | direct document =>
      obtain ⟨start, -, enters⟩ := reached.enters
      have fewer : store.unvisited composition.chain ≤ store.unvisited call.chain := by
        rcases Document.chainWithin?_eq_some enters with
          ⟨-, within⟩ | ⟨id, -, -, within⟩
        · exact Nat.le_of_eq (congrArg store.unvisited within)
        · rw [within]
          exact store.unvisited_append_le call.chain [id]
      simp only [Request.additional]
      omega

theorem Asks.weight_lt {store : Store ρ} {outer inner : Call ρ}
    (asks : outer.Asks store inner) : inner.weight store < outer.weight store := by
  cases asks with
  | reference reached => exact reached.unvisited_lt_weight
  | supplied reached => exact reached.unvisited_lt_weight

theorem asks_wellFounded (store : Store ρ) :
    WellFounded fun inner outer : Call ρ => outer.Asks store inner :=
  Subrelation.wf (fun asks => Asks.weight_lt asks) (measure (weight store)).wf

theorem Reaches.bounded_nested {store : Store ρ} {call : Call ρ}
    {composition : Composition ρ} (reached : call.Reaches store composition)
    (bounded : call.Bounded store) (target : String) (extra : Option (Document ρ)) :
    Bounded store ⟨.stored target, extra, composition.chain⟩ := by
  have longer := reached.length_add_unvisited_le
  have bound := bounded.length_le
  refine ⟨reached.chain_nodup bounded.distinct, ?_⟩
  simp only [Request.additional]
  omega

theorem Asks.bounded {store : Store ρ} {outer inner : Call ρ}
    (asks : outer.Asks store inner) (bounded : outer.Bounded store) :
    inner.Bounded store := by
  cases asks with
  | reference reached => exact reached.bounded_nested bounded _ _
  | supplied reached => exact reached.bounded_nested bounded _ _

theorem bounded_of_asks {store : Store ρ} {outer inner : Call ρ}
    (asks : Relation.ReflTransGen (Asks store) outer inner)
    (bounded : outer.Bounded store) : inner.Bounded store := by
  induction asks with
  | refl => exact bounded
  | tail _ asks induction => exact asks.bounded induction

end Call

/-- Rendering comes to an end on every content. Within any render from an empty
chain, each nested render has a chain without repetition that is at most one
longer than there are identifiers, no document is composed with more layouts
than that, and each call returns by its rules. The bound on the depth has no
part in what is rendered. -/
theorem render_terminates (store : Store ρ) :
    (WellFounded fun inner outer : Call ρ => outer.Asks store inner) ∧
    (∀ depth, store.ids.length ≤ depth →
      Render.renderStored store depth = store.nested) ∧
    ∀ request extra call,
      Relation.ReflTransGen (Call.Asks store) ⟨request, extra, []⟩ call →
      call.chain.Nodup ∧ call.chain.length ≤ 1 + store.ids.length ∧
      (∀ composition, call.Reaches store composition →
        composition.chain.Nodup ∧
        composition.chain.length ≤ 1 + store.ids.length ∧
        composition.used.length ≤ store.ids.length ∧
        Acc (fun next current => Composition.Step store current next) composition) ∧
      call.Returns store (call.outcome store) := by
  refine ⟨Call.asks_wellFounded store, fun depth => store.renderStored_eq_nested, ?_⟩
  intro request extra call asks
  have bounded := Call.bounded_of_asks asks
    (Call.bounded_of_empty_chain store request extra)
  have bound := bounded.length_le
  refine ⟨bounded.distinct, by omega, ?_, call.returns store⟩
  intro composition reached
  have longer := reached.length_add_unvisited_le
  exact ⟨reached.chain_nodup bounded.distinct, by omega, reached.usesOnce.length_le,
    reached.usesOnce.acc⟩

end Compositor
