import Compositor.Proofs.Call
import Compositor.Proofs.Overlay

namespace Compositor

variable {ρ α : Type}

/-- Two lists of entries agree, in order, but for entries of a kind that either may
have anywhere. -/
inductive Entries.AgreeBut (ignored : String × α → Prop) : Entries α → Entries α → Prop
  | nil : AgreeBut ignored [] []
  | both (entry : String × α) {first second : Entries α}
      (rest : AgreeBut ignored first second) :
      AgreeBut ignored (entry :: first) (entry :: second)
  | left {entry : String × α} {first second : Entries α} (extra : ignored entry)
      (rest : AgreeBut ignored first second) : AgreeBut ignored (entry :: first) second
  | right {entry : String × α} {first second : Entries α} (extra : ignored entry)
      (rest : AgreeBut ignored first second) : AgreeBut ignored first (entry :: second)

theorem Entries.AgreeBut.filter_eq {ignored : String × α → Prop}
    {keep : String × α → Bool} (drops : ∀ entry, ignored entry → keep entry = false)
    {first second : Entries α} (agree : AgreeBut ignored first second) :
    first.filter keep = second.filter keep := by
  induction agree with
  | nil => rfl
  | both entry _ induction => rw [List.filter_cons, List.filter_cons, induction]
  | left extra _ induction =>
      rw [List.filter_cons_of_neg (by rw [drops _ extra]; exact Bool.false_ne_true),
        induction]
  | right extra _ induction =>
      rw [List.filter_cons_of_neg (by rw [drops _ extra]; exact Bool.false_ne_true),
        induction]

namespace Render

/-- An entry that a document rendered under `key` must not see: the place itself, what
belongs to the surrounding document only, and what is not evaluated yet. -/
def Withheld (key : String) (entry : String × Value ρ) : Prop :=
  entry.1 = key ∨ entry.1 = Document.layoutKey ∨ entry.1 = Document.idKey ∨
    entry.2.isDeferred = true

theorem visibleContext_congr {context other : Document ρ} {key : String}
    (agree : Entries.AgreeBut (Withheld key) context.entries other.entries) :
    visibleContext context key = visibleContext other key := by
  ext1
  refine agree.filter_eq ?_
  rintro ⟨name, value⟩ (rfl | rfl | rfl | deferred)
  · simp
  · simp
  · simp
  · have deferred : value.isDeferred = true := deferred
    simp [deferred]

end Render

variable [Extension ρ]

namespace Store

/-- The ways in which a mixin comes out. Only a target that is found and rendered
changes the context. -/
inductive MixesIn (store : Store ρ) (target : String) (context : Document ρ)
    (chain : List String) :
    (Except RenderError (Value ρ) × Document ρ) × List String → Prop
  | missing (absent : store.get? target = none) :
      MixesIn store target context chain
        ((.ok (Render.missingText target), context), chain)
  | failed {error : RenderError}
      (returned : Call.outcome store ⟨.stored target, none, chain⟩ = .error error) :
      MixesIn store target context chain ((.error error, context), chain)
  | found {rendered : Document ρ}
      (returned :
        Call.outcome store ⟨.stored target, none, chain⟩ = .ok (some rendered)) :
      MixesIn store target context chain
        ((.ok (Render.contentOrAll rendered),
          context.overlay (rendered.erase Document.contentKey)), chain)

theorem evaluated_mixin (store : Store ρ) (key target : String) (context : Document ρ)
    (chain : List String) :
    store.MixesIn target context chain
      (store.evaluated key (.reference .mixin target) context chain) := by
  rw [evaluated_reference, Render.handedOver]
  cases returned : Call.outcome store ⟨.stored target, none, chain⟩ with
  | error error => exact .failed returned
  | ok result =>
      cases result with
      | none => exact .missing (Call.start?_eq_none_of_ok returned)
      | some rendered => exact .found returned

/-- A mixin may only give keys new values or append new ones, and the content is not
among them. -/
theorem MixesIn.keeps {store : Store ρ} {target : String} {context changed : Document ρ}
    {chain after : List String} {result : Except RenderError (Value ρ)}
    (mixes : store.MixesIn target context chain ((result, changed), after)) :
    changed.content? = context.content? ∧ context.keys <+: changed.keys := by
  cases mixes with
  | missing => exact ⟨rfl, List.prefix_rfl⟩
  | failed => exact ⟨rfl, List.prefix_rfl⟩
  | found =>
      constructor
      · rw [Document.content?, Document.get?_overlay, Document.get?_erase, if_pos rfl,
          Option.none_or, Document.content?]
      · exact context.keys_prefix_overlay _

end Store

/-- What evaluation does besides giving a value, and what its value depends on. -/
structure Store.EvaluatesInPlace (store : Store ρ) (key : String) (context : Document ρ)
    (chain : List String) : Prop where
  chain_kept : ∀ renderer, (store.evaluated key renderer context chain).2 = chain
  context_kept : ∀ renderer : Renderer ρ, renderer.LeavesContext →
    (store.evaluated key renderer context chain).1.2 = context
  mixin : ∀ target, store.MixesIn target context chain
    (store.evaluated key (.reference .mixin target) context chain)
  content_kept : ∀ target,
    (store.evaluated key (.reference .mixin target) context chain).1.2.content? =
      context.content?
  keys_kept : ∀ target, context.keys <+:
    (store.evaluated key (.reference .mixin target) context chain).1.2.keys
  apart : ∀ mode target, mode ≠ .partialView → ∀ other : Document ρ,
    (store.evaluated key (.reference mode target) context chain).1.1 =
      (store.evaluated key (.reference mode target) other chain).1.1
  withheld : ∀ target (other : Document ρ),
    Entries.AgreeBut (Render.Withheld key) context.entries other.entries →
      (store.evaluated key (.reference .partialView target) context chain).1.1 =
        (store.evaluated key (.reference .partialView target) other chain).1.1

theorem Store.evaluatesInPlace (store : Store ρ) (key : String) (context : Document ρ)
    (chain : List String) : store.EvaluatesInPlace key context chain where
  chain_kept := fun renderer =>
    Render.evaluate_keepsChain store.nested_keepsChain store key renderer context chain
  context_kept := by
    intro renderer leaves
    cases renderer with
    | template template => rfl
    | supplied renderer => exact leaves.elim
    | reference mode target =>
        rw [evaluated_reference]
        cases mode with
        | mixin => exact leaves.elim
        | partialView | embed => split <;> rfl
  mixin := fun target => store.evaluated_mixin key target context chain
  content_kept := fun target => (store.evaluated_mixin key target context chain).keeps.1
  keys_kept := fun target => (store.evaluated_mixin key target context chain).keeps.2
  apart := by
    intro mode target handsNothing other
    rw [evaluated_reference, evaluated_reference]
    cases mode with
    | partialView => exact absurd rfl handsNothing
    | mixin | embed =>
        simp only [Render.handedOver]
        split <;> rfl
  withheld := by
    intro target other agree
    rw [evaluated_reference, evaluated_reference, Render.handedOver, Render.handedOver,
      Render.visibleContext_congr agree]
    split <;> rfl

end Compositor
