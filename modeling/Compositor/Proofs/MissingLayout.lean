import Compositor.Proofs.DecidableValues
import Compositor.Proofs.WellFormedSite

namespace Compositor

variable {ρ : Type} [Extension ρ]

namespace Document

/-- Under the key stands a mixin of a document that, once rendered, still holds a
layout, be it an empty one. -/
def BringsLayout (store : Store ρ) (chain : List String) (document : Document ρ)
    (key : String) : Prop :=
  ∃ target label rendered,
    document.Defers key { renderer := .reference .mixin target, label } ∧
    Call.outcome store ⟨.stored target, none, chain⟩ = .ok (some rendered) ∧
    layoutKey ∈ rendered.keys

theorem bringsLayout_iff {store : Store ρ} {chain : List String} {document : Document ρ}
    {key : String} {renderer : Renderer ρ} {label : Nat}
    (defers : document.Defers key { renderer, label }) :
    document.BringsLayout store chain key ↔
      ∃ target rendered, renderer = .reference .mixin target ∧
        Call.outcome store ⟨.stored target, none, chain⟩ = .ok (some rendered) ∧
        layoutKey ∈ rendered.keys := by
  constructor
  · rintro ⟨target, other, rendered, held, brings⟩
    cases defers.symm.trans held
    exact ⟨target, rendered, rfl, brings⟩
  · rintro ⟨target, rendered, rfl, brings⟩
    exact ⟨target, label, rendered, defers, brings⟩

end Document

namespace Call

/-- The rules by which a document is rendered whose layout is missing: this is
reported, unless a reference of the document fails before, or one of its mixins
brings another layout in its place. -/
inductive LacksLayout (store : Store ρ) (call : Call ρ) (start : Document ρ)
    (chain : List String) (id : String) :
    Except RenderError (Option (Document ρ)) → Prop
  | reported (kept : ∀ key, ¬ start.BringsLayout store chain key) :
      LacksLayout store call start chain id (.error (.layoutNotFound id))
  | referenceFailed {inner : Call ρ} {key : String} {mode : Mode} {target : String}
      {label : Nat} {error : RenderError} (asks : call.Asks store inner)
      (defers : start.Defers key { renderer := .reference mode target, label })
      (asked : inner.request = .stored target)
      (failed : inner.outcome store = .error error) :
      LacksLayout store call start chain id (.error error)
  | replaced {key : String} {rendered : Document ρ}
      (brings : start.BringsLayout store chain key) (ends : rendered.layout? = none) :
      LacksLayout store call start chain id (.ok (some rendered))

end Call

namespace Composition

theorem evaluation_bringsLayout {store : Store ρ} {composition : Composition ρ}
    {key : String} {deferred : Deferred ρ}
    (defers : composition.top.document.Defers key deferred)
    (builtin : deferred.renderer.Builtin) {value : Value ρ} {changed : Document ρ}
    {after : List String}
    (evaluated : composition.evaluation store key deferred.renderer =
      ((.ok value, changed), after)) :
    (changed.layout? = composition.current.layout? ∧
      ¬ composition.top.document.BringsLayout store composition.chain key) ∨
    (changed.layout? = none ∧
      composition.top.document.BringsLayout store composition.chain key) := by
  obtain ⟨renderer, label⟩ := deferred
  rw [Document.bringsLayout_iff defers]
  cases renderer with
  | supplied renderer => exact builtin.elim
  | template template =>
      cases evaluated
      exact .inl ⟨rfl, nofun⟩
  | reference mode target =>
      rcases Call.evaluation_reference_ok (congrArg Prod.fst evaluated) with
        ⟨outcome, -, rfl⟩ | ⟨rendered, outcome, -, rfl⟩
      · refine .inl ⟨rfl, ?_⟩
        rintro ⟨other, rendered, same, returned, -⟩
        cases same
        cases outcome.symm.trans returned
      · cases mode with
        | partialView => exact .inl ⟨rfl, nofun⟩
        | embed => exact .inl ⟨rfl, nofun⟩
        | mixin =>
            have content : Document.contentKey ≠ Document.layoutKey := by decide
            by_cases held : Document.layoutKey ∈ rendered.keys
            · refine .inr ⟨?_, target, rendered, rfl, outcome, held⟩
              have laid : Document.layoutKey ∈ (rendered.erase Document.contentKey).keys := by
                rw [Document.keys_erase]
                exact List.mem_filter.mpr ⟨held, by decide⟩
              rw [Render.takenIn, Document.layout?_overlay_of_mem _ laid,
                Document.layout?_erase _ content]
              exact Call.layout?_eq_none_of_ok outcome
            · refine .inl ⟨?_, ?_⟩
              · apply Document.layout?_overlay_of_get?
                rw [Document.get?_erase, if_neg content]
                exact Entries.get?_eq_none_iff.mpr held
              · rintro ⟨other, document, same, returned, brings⟩
                cases same
                cases outcome.symm.trans returned
                exact held brings

/-- No layout is merged. The missing one is named until a mixin has brought another
one, and then none is. -/
structure LacksLayout (store : Store ρ) (start : Document ρ) (chain : List String)
    (id : String) (composition : Composition ρ) : Prop where
  top : composition.top.document = start
  used : composition.used = []
  chain_eq : composition.chain = chain
  layout : (composition.current.layout? = some id ∧
      ∀ key, start.BringsLayout store chain key → key ∈ composition.pending) ∨
    (composition.current.layout? = none ∧ ∃ key, start.BringsLayout store chain key)

theorem begin_lacksLayout {start : Document ρ} {id : String}
    (names : start.layout? = some id) {extra : Option (Document ρ)}
    (leaves : LeavesLayout extra) (store : Store ρ) (chain : List String) :
    LacksLayout store start chain id (begin start extra chain) where
  top := rfl
  used := rfl
  chain_eq := rfl
  layout := by
    refine .inl ⟨(start.layout?_overlay_of_get? leaves).trans names, ?_⟩
    rintro key ⟨target, label, rendered, defers, -⟩
    exact start.keys_subset_overlay _ ((start.mem_keys_iff key).mpr ⟨_, defers⟩)

theorem Step.lacksLayout {store : Store ρ} {start : Document ρ} {chain : List String}
    {id : String} (builtin : start.DefersOnly Renderer.Builtin)
    (names : start.layout? = some id) (missing : store.get? id = none)
    {composition next : Composition ρ} (step : Step store composition next)
    (lacks : LacksLayout store start chain id composition) :
    LacksLayout store start chain id next := by
  obtain ⟨rfl, used, rfl, layout⟩ := lacks
  have chainKept := step.chain_eq
  cases step with
  | @skip key rest pending concrete =>
      refine ⟨rfl, used, chainKept, layout.imp_left ?_⟩
      rintro ⟨named, awaited⟩
      refine ⟨named, ?_⟩
      intro other brings
      have member := awaited other brings
      rw [pending] at member
      rcases List.mem_cons.mp member with rfl | later
      · obtain ⟨target, label, rendered, defers, -⟩ := brings
        exact absurd defers (concrete _)
      · exact later
  | @evaluate key rest deferred value changed after pending defers evaluated =>
      refine ⟨rfl, used, chainKept, ?_⟩
      have notLayout : key ≠ Document.layoutKey := by
        rintro rfl
        rw [Document.layout?, defers] at names
        cases names
      have current : (changed.insert key value).layout? = changed.layout? :=
        changed.layout?_insert notLayout value
      -- The layout is there or gone already, and is left as it is or taken away now.
      rcases layout with ⟨named, awaited⟩ | ⟨ended, brought⟩ <;>
        rcases evaluation_bringsLayout defers (builtin key deferred defers) evaluated with
          ⟨kept, brings⟩ | ⟨lost, brings⟩
      · refine .inl ⟨current.trans (kept.trans named), ?_⟩
        intro other bringsOther
        have member := awaited other bringsOther
        rw [pending] at member
        refine (List.mem_cons.mp member).resolve_left ?_
        rintro rfl
        exact brings bringsOther
      · exact .inr ⟨current.trans lost, key, brings⟩
      · exact .inr ⟨current.trans (kept.trans ended), brought⟩
      · exact .inr ⟨current.trans lost, brought⟩
  | @merge other document visited named unused found =>
      rcases layout with ⟨same, -⟩ | ⟨ended, -⟩
      · obtain rfl := Option.some.inj (same.symm.trans named)
        cases missing.symm.trans found
      · cases ended.symm.trans named

end Composition

/-- A missing layout is dropped only where a mixin of the document has brought another
one. -/
theorem Call.outcome_lacksLayout {store : Store ρ} {call : Call ρ} {start : Document ρ}
    (found : store.start? call.request = some start) {chain : List String}
    (enters : start.chainWithin? call.chain = some chain)
    (builtin : start.DefersOnly Renderer.Builtin) {id : String}
    (names : start.layout? = some id) (missing : store.contains id = false)
    (leaves : LeavesLayout call.extra) :
    call.LacksLayout store start chain id (call.outcome store) := by
  have absent := Store.get?_of_not_contains missing
  have lacksLayout {composition : Composition ρ}
      (reached : call.Reaches store composition) :
      composition.LacksLayout store start chain id := by
    refine reached.invariant ?first ?preserved
    case first =>
      intro other within located entered
      obtain rfl := Option.some.inj (found.symm.trans located)
      obtain rfl := Option.some.inj (enters.symm.trans entered)
      exact Composition.begin_lacksLayout names leaves store chain
    case preserved =>
      intro composition next _ step lacks
      exact step.lacksLayout builtin names absent lacks
  have rule := call.returns store
  generalize call.outcome store = outcome at rule ⊢
  cases rule with
  | missing nothing => cases found.symm.trans nothing
  | visited located identified visited =>
      obtain rfl := Option.some.inj (found.symm.trans located)
      simp [Document.chainWithin?, identified, visited] at enters
  | @composed final outcome reached stops =>
      obtain ⟨top, used, chain_eq, layout⟩ := lacksLayout reached
      cases stops with
      | finished _ ends =>
          rcases layout with ⟨named, -⟩ | ⟨ended, key, brings⟩
          · cases named.symm.trans ends
          · exact .replaced brings ended
      | @evaluationFailed key rest deferred error _ _ pending defers evaluated =>
          obtain ⟨renderer, label⟩ := deferred
          cases renderer with
          | supplied renderer =>
              rw [top] at defers
              exact (builtin key _ defers).elim
          | template template => cases evaluated
          | reference mode target =>
              have failed := evaluation_reference_error
                (congrArg (fun result => result.1.1) evaluated)
              exact .referenceFailed (.reference reached pending defers) (top ▸ defers) rfl
                failed
      | layoutUsed _ _ member =>
          rw [used] at member
          cases member
      | layoutMissing visited named =>
          rcases layout with ⟨same, awaited⟩ | ⟨ended, -⟩
          · obtain rfl := Option.some.inj (same.symm.trans named)
            refine .reported fun key brings => ?_
            have member := awaited key brings
            rw [visited] at member
            cases member
          · cases ended.symm.trans named

def scrapbookPage : Document Empty :=
  .ofEntries [("id", .string "page"), ("layout", .string "ghost"),
    ("aside", .deferred { renderer := .reference .mixin "aside" })]

def scrapbookCard : Document Empty :=
  .ofEntries [("id", .string "card"), ("layout", .string "ghost"),
    ("note", .deferred { renderer := .reference .mixin "note" })]

/-- No layout is stored. The note still has the key of one, over nothing. -/
def scrapbook : Store Empty :=
  ([ scrapbookPage, scrapbookCard,
      .ofEntries [("id", .string "aside"), ("title", .string "Aside")],
      .ofEntries [("id", .string "note"), ("layout", .null)] ]
    : List (Document Empty)).foldl (fun store document => (store.add document).1) .empty

theorem scrapbookPage_lacksLayout :
    scrapbook.start? (.stored "page") = some scrapbookPage ∧
      scrapbookPage.chainWithin? [] = some ["page"] ∧
      scrapbookPage.DefersOnly Renderer.Builtin ∧
      scrapbookPage.layout? = some "ghost" ∧ scrapbook.contains "ghost" = false ∧
      LeavesLayout (none : Option (Document Empty)) ∧
      Call.LacksLayout scrapbook ⟨.stored "page", none, []⟩ scrapbookPage ["page"] "ghost"
        (Call.outcome scrapbook ⟨.stored "page", none, []⟩) := by
  have found : scrapbook.start? (.stored "page") = some scrapbookPage := by decide +kernel
  have enters : scrapbookPage.chainWithin? [] = some ["page"] := by decide +kernel
  have builtin : scrapbookPage.DefersOnly Renderer.Builtin := by decide +kernel
  have names : scrapbookPage.layout? = some "ghost" := by decide +kernel
  have missing : scrapbook.contains "ghost" = false := by decide +kernel
  exact ⟨found, enters, builtin, names, missing, rfl,
    Call.outcome_lacksLayout found enters builtin names missing rfl⟩

/-- A mixin can drop a missing layout, so it is not always reported. -/
theorem scrapbookCard_dropsLayout :
    scrapbook.DefersOnly Renderer.Builtin ∧
      scrapbook.start? (.stored "card") = some scrapbookCard ∧
      scrapbookCard.layout? = some "ghost" ∧ scrapbook.contains "ghost" = false ∧
      ∃ rendered, scrapbook.renderAlone (.stored "card") none = .ok (some rendered) :=
  ⟨Store.defersOnly_of_documents (by decide +kernel), by decide +kernel, by decide +kernel,
    by decide +kernel,
    .ofEntries [("id", .string "note"), ("layout", .null),
      ("note", .map [("id", .string "note"), ("layout", .null)])], by decide +kernel⟩

end Compositor
