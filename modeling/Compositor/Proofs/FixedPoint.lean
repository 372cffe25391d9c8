import Compositor.Proofs.DecidableValues
import Compositor.Proofs.FinalValues

namespace Compositor

variable {ρ : Type}

theorem Value.final_of_not_deferred :
    Value.Final fun value : Value ρ => value.isDeferred = false where
  string := fun _ => rfl
  map := fun _ _ => rfl
  deferred := nofun

namespace Document

theorem hasDeferred_eq_false_iff {document : Document ρ} :
    document.hasDeferred = false ↔ document.All fun value => value.isDeferred = false := by
  rw [all_iff, hasDeferred, List.any_eq_false]
  simp

theorem not_defers_of_hasDeferred {document : Document ρ}
    (concrete : document.hasDeferred = false) (key : String) (deferred : Deferred ρ) :
    ¬ document.Defers key deferred := by
  intro defers
  cases hasDeferred_eq_false_iff.mp concrete key _ defers

theorem DefersOnly.evaluable {document : Document ρ}
    (builtin : document.DefersOnly Renderer.Builtin) :
    document.All (Value.Evaluable fun value => value.isDeferred = false) := by
  intro key value found
  cases value with
  | deferred deferred => exact .inr ⟨deferred, rfl, builtin key deferred found⟩
  | _ => exact .inl rfl

end Document

variable [Extension ρ]

/-- With nothing to evaluate and no layout to follow, rendering leaves a document as
it is. -/
theorem Call.outcome_of_settled {store : Store ρ} {document : Document ρ}
    (concrete : document.hasDeferred = false) (ends : document.layout? = none)
    {chain : List String} (fresh : ∀ id, document.id? = some id → id ∉ chain) :
    Call.outcome store ⟨.direct document, none, chain⟩ = .ok (some document) := by
  let call : Call ρ := ⟨.direct document, none, chain⟩
  change call.outcome store = .ok (some document)
  have unevaluated := document.not_defers_of_hasDeferred concrete
  have unchanged : ∀ {composition}, call.Reaches store composition →
      composition.top.document = document ∧ composition.current = document := by
    intro composition reached
    refine reached.invariant ?first ?preserved
    case first =>
      intro start chain found _
      obtain rfl : document = start := Option.some.inj found
      exact ⟨rfl, rfl⟩
    case preserved =>
      rintro composition next - step ⟨top, current⟩
      cases step with
      | skip => exact ⟨top, current⟩
      | @evaluate key rest deferred _ _ _ _ defers =>
          rw [top] at defers
          exact absurd defers (unevaluated key deferred)
      | merge _ names =>
          rw [current, ends] at names
          cases names
  have rule := call.returns store
  generalize call.outcome store = outcome at rule ⊢
  cases rule with
  | missing absent => cases absent
  | @visited start id found identified visited =>
      obtain rfl : document = start := Option.some.inj found
      exact absurd visited (fresh id identified)
  | composed reached stops =>
      obtain ⟨top, current⟩ := unchanged reached
      cases stops with
      | finished => rw [current]; rfl
      | @evaluationFailed key _ deferred _ _ _ _ defers =>
          rw [top] at defers
          exact absurd defers (unevaluated key deferred)
      | layoutUsed _ names =>
          rw [current, ends] at names
          cases names
      | layoutMissing _ names =>
          rw [current, ends] at names
          cases names

/-- A rendered document is settled: nothing in it is deferred, it names no layout,
and rendering it again changes nothing. -/
theorem Call.rendered_settled {store : Store ρ}
    (builtin : store.DefersOnly Renderer.Builtin) {call : Call ρ}
    (startBuiltin : ∀ start, store.start? call.request = some start →
      start.DefersOnly Renderer.Builtin)
    (concrete : ∀ extra, call.extra = some extra → extra.hasDeferred = false)
    {rendered : Document ρ} (returned : call.outcome store = .ok (some rendered)) :
    rendered.hasDeferred = false ∧ rendered.layout? = none ∧
      store.renderAlone (.direct rendered) none = .ok (some rendered) := by
  have laidOver : (call.extra.getD .empty).All fun value => value.isDeferred = false := by
    cases given : call.extra with
    | none => exact Document.all_empty
    | some extra => exact Document.hasDeferred_eq_false_iff.mp (concrete extra given)
  have all := all_of_ok Value.final_of_not_deferred
    (fun id document found => (builtin id document found).evaluable)
    (fun start found => (startBuiltin start found).evaluable) laidOver returned
  have settled := Document.hasDeferred_eq_false_iff.mpr all
  have ends := layout?_eq_none_of_ok returned
  exact ⟨settled, ends, outcome_of_settled settled ends fun _ _ => List.not_mem_nil⟩

/-- The page chooses its layout when it is rendered, and takes in the keys of a
sidebar before that. -/
def bulletin : Store Empty :=
  ([ .ofEntries [("id", .string "page"), ("section", .string "home"),
        ("aside", .deferred { renderer := .reference .mixin "sidebar" }),
        ("layout", .deferred { renderer := .template (.compile "$section$-frame") }),
        ("content", .string "Text")],
      .ofEntries [("id", .string "sidebar"), ("section", .string "news"),
        ("links", .deferred { renderer := .reference .embed "links" })],
      .ofEntries [("id", .string "links"), ("first", .string "Archive")],
      .ofEntries [("id", .string "news-frame"),
        ("footer", .deferred { renderer := .reference .partialView "footer" }),
        ("content", .deferred { renderer := .template (.compile "<$content$>") })],
      .ofEntries [("id", .string "footer"),
        ("content", .deferred { renderer := .template (.compile "$section$, $date$") })] ]
    : List (Document Empty)).foldl (fun store document => (store.add document).1) .empty

def bulletinExtra : Document Empty :=
  .ofEntries [("date", .string "May")]

def bulletinPage : Document Empty :=
  .ofEntries [("id", .string "sidebar"), ("footer", .string "news, May"),
    ("content", .string "<Text>"), ("section", .string "news"),
    ("aside", .map [("id", .string "sidebar"), ("section", .string "news"),
      ("links", .map [("id", .string "links"), ("first", .string "Archive")])]),
    ("date", .string "May"),
    ("links", .map [("id", .string "links"), ("first", .string "Archive")])]

theorem bulletinPage_settled :
    bulletin.DefersOnly Renderer.Builtin ∧ bulletinExtra.hasDeferred = false ∧
      Call.outcome bulletin ⟨.stored "page", some bulletinExtra, []⟩ =
        .ok (some bulletinPage) ∧
      bulletinPage.hasDeferred = false ∧ bulletinPage.layout? = none ∧
      bulletin.renderAlone (.direct bulletinPage) none = .ok (some bulletinPage) := by
  have builtin : bulletin.DefersOnly Renderer.Builtin :=
    Store.defersOnly_of_documents (by decide +kernel)
  have concrete : bulletinExtra.hasDeferred = false := by decide +kernel
  have returned : Call.outcome bulletin ⟨.stored "page", some bulletinExtra, []⟩ =
      .ok (some bulletinPage) := by decide +kernel
  have startBuiltin : ∀ start, bulletin.start? (.stored "page") = some start →
      start.DefersOnly Renderer.Builtin := builtin "page"
  refine ⟨builtin, concrete, returned,
    Call.rendered_settled builtin startBuiltin ?_ returned⟩
  rintro extra ⟨⟩
  exact concrete

end Compositor
