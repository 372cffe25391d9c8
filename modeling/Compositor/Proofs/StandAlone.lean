import Compositor.Engine
import Compositor.Proofs.Call
import Compositor.Proofs.DecidableValues

namespace Compositor

variable {ρ α β : Type}

namespace Render

/-! Rendering on two chains, of which one holds all that the other holds. -/

/-- A document is refused for an identifier that only the wider chain holds. -/
def Refuses (wide narrow : List String) (outcome : Except RenderError α) : Prop :=
  ∃ id ∈ wide, id ∉ narrow ∧ outcome = .error (.recursiveReference id)

/-- On the wider chain the action comes out as on the narrower one, or it ends in
such a refusal. -/
def AgreesOn (wide narrow : List String) (action : RenderM α) : Prop :=
  (runOn action wide).1 = (runOn action narrow).1 ∨
    Refuses wide narrow (runOn action wide).1

def EvaluationAgreesOn (wide narrow : List String) (action : EvaluateM ρ α) : Prop :=
  ∀ context, (runIn action context wide).1 = (runIn action context narrow).1 ∨
    Refuses wide narrow (runIn action context wide).1.1

variable {wide narrow : List String}

theorem Refuses.map {outcome : Except RenderError α}
    (refuses : Refuses wide narrow outcome) (f : α → β) :
    Refuses wide narrow (outcome.map f) := by
  obtain ⟨id, held, lacking, rfl⟩ := refuses
  exact ⟨id, held, lacking, rfl⟩

theorem AgreesOn.map {action : RenderM α} (agrees : AgreesOn wide narrow action)
    (f : α → β) : AgreesOn wide narrow (f <$> action) := by
  unfold AgreesOn
  rw [runOn_map, runOn_map]
  exact agrees.imp (congrArg (Except.map f)) fun refuses => refuses.map f

theorem AgreesOn.bind {action : RenderM α} {next : α → RenderM β}
    (keeps : KeepsChain action) (first : AgreesOn wide narrow action)
    (second : ∀ value, AgreesOn wide narrow (next value)) :
    AgreesOn wide narrow (action >>= next) := by
  have keptWide := keeps wide
  have keptNarrow := keeps narrow
  unfold AgreesOn at first ⊢
  rw [runOn_bind, runOn_bind]
  generalize runOn action wide = outcome at first keptWide ⊢
  generalize runOn action narrow = other at first keptNarrow ⊢
  obtain ⟨result, after⟩ := outcome
  obtain ⟨otherResult, otherAfter⟩ := other
  cases keptWide
  cases keptNarrow
  rcases first with same | ⟨id, held, lacking, refused⟩
  · cases same
    cases result with
    | error error => exact .inl rfl
    | ok value => exact second value
  · cases refused
    exact .inr ⟨id, held, lacking, rfl⟩

theorem EvaluationAgreesOn.bind {action : EvaluateM ρ α} {next : α → EvaluateM ρ β}
    (keeps : EvaluationKeepsChain action)
    (first : EvaluationAgreesOn wide narrow action)
    (second : ∀ value, EvaluationAgreesOn wide narrow (next value)) :
    EvaluationAgreesOn wide narrow (action >>= next) := by
  intro context
  have keptWide := keeps context wide
  have keptNarrow := keeps context narrow
  have agrees := first context
  rw [runIn_bind, runIn_bind]
  generalize runIn action context wide = outcome at agrees keptWide ⊢
  generalize runIn action context narrow = other at agrees keptNarrow ⊢
  obtain ⟨⟨result, changed⟩, after⟩ := outcome
  obtain ⟨⟨otherResult, otherChanged⟩, otherAfter⟩ := other
  cases keptWide
  cases keptNarrow
  rcases agrees with same | ⟨id, held, lacking, refused⟩
  · cases same
    cases result with
    | error error => exact .inl rfl
    | ok value => exact second value changed
  · cases refused
    exact .inr ⟨id, held, lacking, rfl⟩

section

variable {nested : Nested ρ} (keeps : ∀ id extra, KeepsChain (nested id extra))
  (agrees : ∀ id extra, AgreesOn wide narrow (nested id extra))

include agrees in
theorem evaluateReference_agreesOn (target key : String) (mode : Mode) :
    EvaluationAgreesOn wide narrow (evaluateReference nested target key mode) := by
  intro context
  have first := agrees target (handedOver mode context key)
  unfold AgreesOn at first
  rw [runIn_evaluateReference, runIn_evaluateReference]
  generalize runOn (nested target (handedOver mode context key)) wide = outcome
    at first ⊢
  generalize runOn (nested target (handedOver mode context key)) narrow = other
    at first ⊢
  obtain ⟨result, after⟩ := outcome
  obtain ⟨otherResult, otherAfter⟩ := other
  rcases first with same | ⟨id, held, lacking, refused⟩
  · cases same
    obtain error | _ | rendered := result <;> exact .inl rfl
  · cases refused
    exact .inr ⟨id, held, lacking, rfl⟩

variable [Extension ρ]

include agrees in
theorem evaluate_agreesOn (store : Store ρ) (key : String) {renderer : Renderer ρ}
    (builtin : renderer.Builtin) :
    EvaluationAgreesOn wide narrow (evaluate nested store key renderer) := by
  cases renderer with
  | reference mode target => exact evaluateReference_agreesOn agrees target key mode
  | template template => exact fun _ => .inl rfl
  | supplied renderer => exact builtin.elim

include keeps agrees

theorem evaluateKey_agreesOn (store : Store ρ) {layout : Document ρ}
    (builtin : layout.DefersOnly Renderer.Builtin) (key : String) :
    EvaluationAgreesOn wide narrow (evaluateKey nested store layout key) := by
  unfold evaluateKey
  cases found : (layout.get? key).bind Value.deferred? with
  | none => exact fun _ => .inl rfl
  | some deferred =>
      have defers := Document.deferred?_eq_some.mp found
      refine (evaluate_agreesOn agrees store key (builtin key deferred defers)).bind
        (evaluate_keepsChain keeps store key deferred.renderer) ?_
      exact fun value context => .inl rfl

theorem evaluateKeys_agreesOn (store : Store ρ) {layout : Document ρ}
    (builtin : layout.DefersOnly Renderer.Builtin) (keys : List String) :
    EvaluationAgreesOn wide narrow (keys.forM (evaluateKey nested store layout)) := by
  induction keys with
  | nil => exact fun _ => .inl rfl
  | cons key rest induction =>
      exact (evaluateKey_agreesOn keeps agrees store builtin key).bind
        (evaluateKey_keepsChain keeps store layout key) fun _ => induction

theorem resolve_agreesOn (store : Store ρ) (merged : Document ρ) {layout : Document ρ}
    (builtin : layout.DefersOnly Renderer.Builtin) :
    AgreesOn wide narrow (resolve nested store merged layout) := by
  have visited := evaluateKeys_agreesOn keeps agrees store builtin merged.keys merged
  unfold AgreesOn
  rw [runOn_resolve, runOn_resolve]
  generalize runIn (merged.keys.forM (evaluateKey nested store layout)) merged wide =
    outcome at visited ⊢
  generalize runIn (merged.keys.forM (evaluateKey nested store layout)) merged narrow =
    other at visited ⊢
  obtain ⟨⟨result, resolved⟩, after⟩ := outcome
  obtain ⟨⟨otherResult, otherResolved⟩, otherAfter⟩ := other
  rcases visited with same | refuses
  · cases same
    exact .inl rfl
  · exact .inr (refuses.map fun _ => resolved)

theorem applyLayouts_agreesOn {store : Store ρ}
    (builtin : store.DefersOnly Renderer.Builtin) (remaining : Nat)
    (used : List String) (document : Document ρ) :
    AgreesOn wide narrow (applyLayouts nested store remaining used document) := by
  induction remaining generalizing used document with
  | zero =>
      rw [applyLayouts_eq]
      cases document.layout? with
      | none => exact .inl rfl
      | some id =>
          dsimp only
          split
          · exact .inl rfl
          · cases store.get? id <;> exact .inl rfl
  | succ remaining induction =>
      rw [applyLayouts_eq]
      cases document.layout? with
      | none => exact .inl rfl
      | some id =>
          dsimp only
          split
          · exact .inl rfl
          · cases found : store.get? id with
            | none => exact .inl rfl
            | some layout =>
                exact (resolve_agreesOn keeps agrees store _ (builtin id layout found)).bind
                  (resolve_keepsChain keeps store _ layout)
                  fun merged => induction (id :: used) merged

theorem compose_agreesOn {store : Store ρ}
    (builtin : store.DefersOnly Renderer.Builtin) {start : Document ρ}
    (startBuiltin : start.DefersOnly Renderer.Builtin)
    (extra : Option (Document ρ)) :
    AgreesOn wide narrow (compose nested store start extra) :=
  (resolve_agreesOn keeps agrees store _ startBuiltin).bind
    (resolve_keepsChain keeps store _ start)
    fun resolved => applyLayouts_agreesOn keeps agrees builtin _ _ resolved

end

section

variable [Extension ρ]

theorem renderDocument_agreesOn {nested : Nested ρ}
    (keeps : ∀ id extra, KeepsChain (nested id extra))
    (agrees : ∀ {wide narrow}, narrow ⊆ wide → ∀ id extra,
      AgreesOn wide narrow (nested id extra))
    {store : Store ρ} (builtin : store.DefersOnly Renderer.Builtin)
    {start : Document ρ} (startBuiltin : start.DefersOnly Renderer.Builtin)
    (extra : Option (Document ρ)) (contained : narrow ⊆ wide) :
    AgreesOn wide narrow (renderDocument nested store start extra) := by
  unfold AgreesOn
  rw [runOn_renderDocument, runOn_renderDocument]
  cases start.id? with
  | none =>
      exact compose_agreesOn keeps (agrees contained) builtin startBuiltin extra
  | some id =>
      dsimp only
      by_cases inner : id ∈ narrow
      · rw [if_pos inner, if_pos (contained inner)]
        exact .inl rfl
      · rw [if_neg inner]
        by_cases outer : id ∈ wide
        · rw [if_pos outer]
          exact .inr ⟨id, outer, inner, rfl⟩
        · rw [if_neg outer, runOn_within, runOn_within]
          -- Both chains gain the identifier, so a refusal for it is none of these.
          have extended : narrow ++ [id] ⊆ wide ++ [id] :=
            List.append_subset.mpr ⟨List.subset_append_of_subset_left _ contained,
              List.subset_append_right _ _⟩
          refine (compose_agreesOn keeps (agrees extended) builtin startBuiltin
            extra).imp_right ?_
          rintro ⟨other, held, lacking, refused⟩
          rw [List.mem_append, not_or] at lacking
          exact ⟨other, (List.mem_append.mp held).resolve_right lacking.2, lacking.1,
            refused⟩

theorem renderStored_agreesOn {store : Store ρ}
    (builtin : store.DefersOnly Renderer.Builtin) (depth : Nat)
    (contained : narrow ⊆ wide) (id : String) (extra : Option (Document ρ)) :
    AgreesOn wide narrow (renderStored store depth id extra) := by
  -- Over all pairs of chains, since both are longer one level further down.
  induction depth generalizing wide narrow id extra with
  | zero =>
      unfold renderStored
      split <;> exact .inl rfl
  | succ depth induction =>
      unfold renderStored
      cases found : store.get? id with
      | none => exact .inl rfl
      | some start =>
          exact (renderDocument_agreesOn (renderStored_keepsChain store depth)
            induction builtin (builtin id start found) extra contained).map some

end

end Render

variable [Extension ρ]

theorem Store.render_agreesOn {store : Store ρ}
    (builtin : store.DefersOnly Renderer.Builtin) {request : Request ρ}
    (startBuiltin : ∀ start, store.start? request = some start →
      start.DefersOnly Renderer.Builtin)
    (extra : Option (Document ρ)) {wide narrow : List String}
    (contained : narrow ⊆ wide) :
    Render.AgreesOn wide narrow (store.render request extra) := by
  have agrees {wide narrow : List String} (contained : narrow ⊆ wide) (id : String)
      (extra : Option (Document ρ)) :
      Render.AgreesOn wide narrow (store.nested id extra) :=
    Render.renderStored_agreesOn builtin _ contained id extra
  cases request with
  | stored id => exact agrees contained id extra
  | direct document =>
      exact (Render.renderDocument_agreesOn store.nested_keepsChain agrees builtin
        (startBuiltin document rfl) extra contained).map some

/-- An embed or a mixin of a stored document stands for the document as it is
rendered on the chain, with nothing of the context handed over. -/
theorem Composition.exists_outcome_of_evaluation {store : Store ρ}
    {composition : Composition ρ} {key : String} {mode : Mode}
    (handsNothing : mode ≠ .partialView) {target : String}
    (stored : store.contains target = true) {value : Value ρ}
    (evaluated :
      (composition.evaluation store key (.reference mode target)).1.1 = .ok value) :
    ∃ rendered,
      Call.outcome store ⟨.stored target, none, composition.chain⟩ = .ok (some rendered) ∧
      value = Render.contentOrAll rendered := by
  have nothing : composition.nestedCall key mode target =
      ⟨.stored target, none, composition.chain⟩ := by
    cases mode with
    | partialView => exact absurd rfl handsNothing
    | mixin => rfl
    | embed => rfl
  rcases Call.evaluation_reference_ok (Prod.ext evaluated rfl) with
    ⟨outcome, -⟩ | ⟨rendered, outcome, equal, -⟩
  · obtain ⟨document, found⟩ := Store.exists_of_contains stored
    have absent : store.get? target = none := Call.start?_eq_none_of_ok outcome
    rw [found] at absent
    cases absent
  · rw [nothing] at outcome
    exact ⟨rendered, outcome, equal⟩

/-- A document is rendered within others as it is on its own. On a chain it may
only fail besides, because it comes upon a document that is on the chain. What an
embed or a mixin stands for is therefore the document on its own. -/
theorem Engine.render_standsAlone {engine : Engine ρ}
    (builtin : engine.store.DefersOnly Renderer.Builtin) :
    (∀ call : Call ρ,
      (∀ start, engine.store.start? call.request = some start →
        start.DefersOnly Renderer.Builtin) →
      (∀ result, call.outcome engine.store = .ok result →
        engine.render call.request call.extra = .ok result) ∧
      ∀ result error, engine.render call.request call.extra = .ok result →
        call.outcome engine.store = .error error →
        ∃ id ∈ call.chain, error = .recursiveReference id) ∧
    ∀ (composition : Composition ρ) key mode target value, mode ≠ .partialView →
      engine.store.contains target = true →
      (composition.evaluation engine.store key (.reference mode target)).1.1 =
        .ok value →
      ∃ rendered, engine.render (.stored target) none = .ok (some rendered) ∧
        value = Render.contentOrAll rendered := by
  have agrees (call : Call ρ)
      (startBuiltin : ∀ start, engine.store.start? call.request = some start →
        start.DefersOnly Renderer.Builtin) :
      call.outcome engine.store = engine.render call.request call.extra ∨
        Render.Refuses call.chain [] (call.outcome engine.store) :=
    Store.render_agreesOn builtin startBuiltin call.extra (List.nil_subset call.chain)
  have returns (call : Call ρ)
      (startBuiltin : ∀ start, engine.store.start? call.request = some start →
        start.DefersOnly Renderer.Builtin)
      (result : Option (Document ρ)) (returned : call.outcome engine.store = .ok result) :
      engine.render call.request call.extra = .ok result := by
    rcases agrees call startBuiltin with same | ⟨id, -, -, refused⟩
    · exact same.symm.trans returned
    · rw [refused] at returned
      cases returned
  refine ⟨?nested, ?reference⟩
  case nested =>
    intro call startBuiltin
    refine ⟨returns call startBuiltin, ?_⟩
    intro result error returned failed
    rcases agrees call startBuiltin with same | ⟨id, held, -, refused⟩
    · rw [same, returned] at failed
      cases failed
    · rw [failed] at refused
      exact ⟨id, held, Except.error.inj refused⟩
  case reference =>
    intro composition key mode target value handsNothing stored evaluated
    obtain ⟨rendered, outcome, equal⟩ :=
      composition.exists_outcome_of_evaluation handsNothing stored evaluated
    exact ⟨rendered,
      returns ⟨.stored target, none, composition.chain⟩ (builtin target) _ outcome,
      equal⟩

def almanacPage : Document Empty :=
  .ofEntries [("id", .string "page"),
    ("content", .deferred { renderer := .reference .embed "month" })]

/-- The page embeds a month, which embeds a day. -/
def almanac : Store Empty :=
  ([ almanacPage,
      .ofEntries [("id", .string "month"),
        ("day", .deferred { renderer := .reference .embed "day" }),
        ("content", .deferred { renderer := .template (.compile "<$day$>") })],
      .ofEntries [("id", .string "day"), ("content", .string "Monday")] ]
    : List (Document Empty)).foldl (fun store document => (store.add document).1) .empty

def almanacMonth : Document Empty :=
  .ofEntries [("id", .string "month"), ("day", .string "Monday"),
    ("content", .string "<Monday>")]

theorem almanac_standsAlone :
    almanac.DefersOnly Renderer.Builtin ∧
      Call.outcome almanac ⟨.stored "month", none, ["page"]⟩ = .ok (some almanacMonth) ∧
      Engine.render { store := almanac } (.stored "month") = .ok (some almanacMonth) ∧
      Call.outcome almanac ⟨.stored "month", none, ["page", "day"]⟩ =
        .error (.recursiveReference "day") ∧
      (∃ id ∈ ["page", "day"],
        RenderError.recursiveReference "day" = .recursiveReference id) ∧
      ∃ rendered, Engine.render { store := almanac } (.stored "month") =
          .ok (some rendered) ∧
        Value.string "<Monday>" = Render.contentOrAll rendered := by
  have builtin : almanac.DefersOnly Renderer.Builtin :=
    Store.defersOnly_of_documents (by decide +kernel)
  have within : Call.outcome almanac ⟨.stored "month", none, ["page"]⟩ =
      .ok (some almanacMonth) := by decide +kernel
  have refused : Call.outcome almanac ⟨.stored "month", none, ["page", "day"]⟩ =
      .error (.recursiveReference "day") := by decide +kernel
  have evaluated : ((Composition.begin almanacPage none ["page"]).evaluation almanac
      "content" (.reference .embed "month")).1.1 = .ok (.string "<Monday>") := by
    decide +kernel
  obtain ⟨nested, reference⟩ :=
    @Engine.render_standsAlone Empty _ { store := almanac } builtin
  have alone := (nested ⟨.stored "month", none, ["page"]⟩ (builtin "month")).1 _ within
  exact ⟨builtin, within, alone, refused,
    (nested ⟨.stored "month", none, ["page", "day"]⟩ (builtin "month")).2 _ _ alone
      refused,
    reference _ "content" .embed "month" _ (by decide) rfl evaluated⟩

end Compositor
