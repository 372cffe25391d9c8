import Compositor.Proofs.DecidableValues
import Compositor.Proofs.FixedPoint

namespace Compositor

variable {ρ : Type}

/-- Entries that can as well be written into a document beforehand: they are concrete,
leave its identifier alone, and replace nothing that it defers. -/
structure Document.EditOf (extra start : Document ρ) : Prop where
  concrete : extra.hasDeferred = false
  noId : extra.contains idKey = false
  apart : ∀ key deferred, start.Defers key deferred → extra.contains key = false

namespace Document

theorem get?_eq_none_of_contains {document : Document ρ} {key : String}
    (absent : document.contains key = false) : document.get? key = none :=
  Option.isNone_iff_eq_none.mp (Option.isSome_eq_false_iff.mp absent)

theorem hasDeferred_filter {document : Document ρ} {keep : String × Value ρ → Bool}
    (concrete : ∀ entry ∈ document.entries, keep entry = true →
      entry.2.isDeferred = false) :
    (document.filter keep).hasDeferred = false := by
  rw [hasDeferred_eq_false_iff, all_iff]
  intro entry member
  obtain ⟨held, kept⟩ := List.mem_filter.mp member
  exact concrete entry held kept

theorem hasDeferred_overlay {lower upper : Document ρ} (below : lower.hasDeferred = false)
    (above : upper.hasDeferred = false) : (lower.overlay upper).hasDeferred = false :=
  hasDeferred_eq_false_iff.mpr
    ((hasDeferred_eq_false_iff.mp below).overlay (hasDeferred_eq_false_iff.mp above))

namespace EditOf

variable {start extra : Document ρ} (edit : extra.EditOf start)
include edit

theorem id?_overlay : (start.overlay extra).id? = start.id? := by
  rw [id?, id?, get?_overlay, get?_eq_none_of_contains edit.noId, Option.none_or]

/-- The edited document defers what the document does, and nothing else. -/
theorem deferred?_overlay (key : String) :
    ((start.overlay extra).get? key).bind Value.deferred? =
      (start.get? key).bind Value.deferred? := by
  rw [get?_overlay]
  cases laid : extra.get? key with
  | none => rw [Option.none_or]
  | some value =>
      have plain := hasDeferred_eq_false_iff.mp edit.concrete key value laid
      have settled : value.deferred? = none :=
        Option.isNone_iff_eq_none.mp (Option.isSome_eq_false_iff.mp plain)
      rw [Option.some_or, Option.bind_some, settled, eq_comm,
        Option.eq_none_iff_forall_ne_some]
      intro deferred found
      have absent := edit.apart key deferred (deferred?_eq_some.mp found)
      rw [contains, Entries.contains, ← get?, laid] at absent
      cases absent

end EditOf

end Document

namespace Render

section

variable [Extension ρ]

/-- Only what a layout defers counts when its keys are evaluated. -/
theorem evaluateKey_layout_congr (nested : Nested ρ) (store : Store ρ)
    {layout other : Document ρ}
    (same : ∀ key, (layout.get? key).bind Value.deferred? =
      (other.get? key).bind Value.deferred?) :
    evaluateKey nested store layout = evaluateKey nested store other := by
  funext key
  unfold evaluateKey
  rw [same key]

theorem compose_eq_of_edit (nested : Nested ρ) (store : Store ρ)
    {start extra : Document ρ} (edit : extra.EditOf start) :
    compose nested store start (some extra) =
      compose nested store (start.overlay extra) none := by
  have evaluated : evaluateKey nested store start =
      evaluateKey nested store (start.overlay extra) :=
    evaluateKey_layout_congr nested store fun key => (edit.deferred?_overlay key).symm
  have resolved : resolve nested store (start.overlay extra) start =
      resolve nested store (start.overlay extra) (start.overlay extra) := by
    unfold resolve
    rw [evaluated]
  calc
    compose nested store start (some extra)
    _ = resolve nested store (start.overlay extra) start >>=
          applyLayouts nested store store.index.length [] := rfl
    _ = resolve nested store (start.overlay extra) (start.overlay extra) >>=
          applyLayouts nested store store.index.length [] := by rw [resolved]
    _ = compose nested store (start.overlay extra) none := rfl

theorem renderDocument_eq_of_edit (nested : Nested ρ) (store : Store ρ)
    {start extra : Document ρ} (edit : extra.EditOf start) :
    renderDocument nested store start (some extra) =
      renderDocument nested store (start.overlay extra) none := by
  unfold renderDocument
  rw [edit.id?_overlay, compose_eq_of_edit nested store edit]

end

/-! What a partial shows of a document with nothing to evaluate. -/

/-- The content of the context, as a document rendered under the key sees it. -/
def visibleContent? (context : Document ρ) (key : String) : Option (Value ρ) :=
  if key = Document.contentKey then none
  else context.content?.filter fun content => !content.isDeferred

theorem content?_visibleContext (context : Document ρ) (key : String) :
    (visibleContext context key).content? = visibleContent? context key := by
  rw [Document.content?, visibleContext, Document.get?_filter, visibleContent?,
    Document.content?]
  have named : Document.contentKey ≠ Document.layoutKey ∧
      Document.contentKey ≠ Document.idKey := by decide
  by_cases same : key = Document.contentKey
  · rw [if_pos same, Option.filter_eq_none_iff]
    simp [same]
  · have other : Document.contentKey ≠ key := Ne.symm same
    simp only [if_neg same, ne_eq, named.1, named.2, other, not_false_eq_true,
      decide_true, Bool.true_and]

theorem visibleContext_editOf {start : Document ρ} (concrete : start.hasDeferred = false)
    (context : Document ρ) (key : String) : (visibleContext context key).EditOf start where
  concrete := by
    apply Document.hasDeferred_filter
    intro entry _ visible
    simp only [Bool.and_eq_true, Bool.not_eq_true'] at visible
    exact visible.2
  noId := by
    have absent : (visibleContext context key).get? Document.idKey = none :=
      Document.get?_filter_of_dropped (by simp)
    rw [Document.contains, Entries.contains, ← Document.get?, absent]
    rfl
  apart := fun other deferred defers =>
    absurd defers (start.not_defers_of_hasDeferred concrete other deferred)

theorem layout?_overlay_visibleContext (start context : Document ρ) (key : String) :
    (start.overlay (visibleContext context key)).layout? = start.layout? :=
  start.layout?_overlay_of_get? (Document.get?_filter_of_dropped (by simp))

end Render

variable [Extension ρ]

namespace Store

theorem render_eq_of_edit (store : Store ρ) {request : Request ρ}
    {start extra : Document ρ} (found : store.start? request = some start)
    (edit : extra.EditOf start) :
    store.render request (some extra) =
      store.render (.direct (start.overlay extra)) none := by
  rw [store.render_eq request, found, store.render_eq (.direct (start.overlay extra))]
  dsimp only [start?]
  rw [Render.renderDocument_eq_of_edit store.nested store edit]

theorem evaluated_partialView_of_settled (store : Store ρ) {target : String}
    {start : Document ρ} (found : store.get? target = some start)
    (concrete : start.hasDeferred = false) (ends : start.layout? = none)
    (context : Document ρ) (key : String) {chain : List String} (fresh : target ∉ chain) :
    store.evaluated key (.reference .partialView target) context chain =
      ((.ok (Render.contentOrAll (start.overlay (Render.visibleContext context key))),
        context), chain) := by
  have edit := Render.visibleContext_editOf concrete context key
  have edited : store.render (.stored target) (some (Render.visibleContext context key)) =
      store.render (.direct (start.overlay (Render.visibleContext context key))) none :=
    store.render_eq_of_edit found edit
  have identified : ∀ id,
      (start.overlay (Render.visibleContext context key)).id? = some id → id ∉ chain := by
    intro id same
    rw [edit.id?_overlay, Store.id?_of_get? found] at same
    obtain rfl := Option.some.inj same
    exact fresh
  have returned : Call.outcome store
      ⟨.stored target, some (Render.visibleContext context key), chain⟩ =
        .ok (some (start.overlay (Render.visibleContext context key))) := by
    rw [Call.outcome, edited]
    exact Call.outcome_of_settled
      (Document.hasDeferred_overlay concrete edit.concrete)
      ((Render.layout?_overlay_visibleContext start context key).trans ends) identified
  rw [evaluated_reference, Render.handedOver, returned]
  rfl

/-- Rendering with extra entries is rendering the document with the entries written
into it, wherever the entries can be written into it. So a partial of a document
that has nothing to evaluate and no layout shows the content of the context, where
the document sees one; else its own; else all of it, with what it sees of the
context. -/
theorem render_extra_eq_edited (store : Store ρ) :
    (∀ request start extra, store.start? request = some start → extra.EditOf start →
      store.render request (some extra) =
        store.render (.direct (start.overlay extra)) none) ∧
    ∀ target start, store.get? target = some start → start.hasDeferred = false →
      start.layout? = none → ∀ context key chain, target ∉ chain →
        store.evaluated key (.reference .partialView target) context chain =
          ((.ok (((Render.visibleContent? context key).or start.content?).getD
            (start.overlay (Render.visibleContext context key)).toValue), context),
            chain) := by
  refine ⟨?edited, ?shown⟩
  case edited =>
    intro request start extra found edit
    exact store.render_eq_of_edit found edit
  case shown =>
    intro target start found concrete ends context key chain fresh
    have content : (start.overlay (Render.visibleContext context key)).content? =
        (Render.visibleContent? context key).or start.content? := by
      rw [← Render.content?_visibleContext]
      exact start.get?_overlay (Render.visibleContext context key) Document.contentKey
    rw [store.evaluated_partialView_of_settled found concrete ends context key fresh,
      Render.contentOrAll, content]

end Store

def letter : Document Empty :=
  .ofEntries [("id", .string "letter"),
    ("seal", .deferred { renderer := .reference .embed "stamp" }),
    ("content", .deferred { renderer := .template (.compile "$seal$, $name$") })]

def slip : Document Empty :=
  .ofEntries [("id", .string "slip"), ("price", .int 3)]

/-- A letter that is sealed with a stamp, and a slip without content. -/
def letterbox : Store Empty :=
  ([ letter, slip,
      .ofEntries [("id", .string "stamp"), ("content", .string "Paid")],
      .ofEntries [("id", .string "frame"),
        ("content", .deferred { renderer := .template (.compile "<$content$>") })] ]
    : List (Document Empty)).foldl (fun store document => (store.add document).1) .empty

def letterExtra : Document Empty :=
  .ofEntries [("name", .string "Ann"), ("layout", .string "frame")]

def letterContext : Document Empty :=
  .ofEntries [("id", .string "letter"), ("name", .string "Ann"),
    ("content", .deferred { renderer := .template (.compile "$seal$") })]

/-- The extra entries choose the layout of the letter. The slip does not see the
content that the letter still defers. -/
theorem letterbox_extra :
    letterbox.start? (.stored "letter") = some letter ∧ letterExtra.EditOf letter ∧
      letterbox.render (.stored "letter") (some letterExtra) =
        letterbox.render (.direct (letter.overlay letterExtra)) none ∧
      letterbox.get? "slip" = some slip ∧ slip.hasDeferred = false ∧
      slip.layout? = none ∧ "slip" ∉ ["letter"] ∧
      letterbox.evaluated "aside" (.reference .partialView "slip") letterContext
          ["letter"] =
        ((.ok (.map [("id", .string "slip"), ("price", .int 3), ("name", .string "Ann")]),
          letterContext), ["letter"]) := by
  have found : letterbox.start? (.stored "letter") = some letter := by decide +kernel
  have edit : letterExtra.EditOf letter := {
    concrete := by decide +kernel
    noId := by decide +kernel
    apart := by
      have apart : ∀ entry ∈ letter.entries, ∀ deferred ∈ entry.2.deferred?,
          letterExtra.contains entry.1 = false := by decide +kernel
      intro key deferred defers
      exact apart _ (Entries.mem_of_get? defers) deferred rfl }
  have stored : letterbox.get? "slip" = some slip := by decide +kernel
  have concrete : slip.hasDeferred = false := by decide +kernel
  have ends : slip.layout? = none := by decide +kernel
  have fresh : "slip" ∉ ["letter"] := by decide
  obtain ⟨edited, shown⟩ := Store.render_extra_eq_edited letterbox
  exact ⟨found, edit, edited _ _ _ found edit, stored, concrete, ends, fresh,
    shown _ _ stored concrete ends letterContext "aside" _ fresh⟩

end Compositor
