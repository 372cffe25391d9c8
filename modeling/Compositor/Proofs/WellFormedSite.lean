import Compositor.Engine
import Compositor.Proofs.Overlay
import Compositor.Proofs.Termination

namespace Compositor

variable {ρ : Type}

namespace Store

/-- From a stored document along the layouts that are named, the last name first,
to the document that it leads to. -/
inductive LayoutWalk (store : Store ρ) (id : String) :
    List String → Document ρ → Prop
  | start {document : Document ρ} (found : store.get? id = some document) :
      LayoutWalk store id [] document
  | layout {walk : List String} {document layout : Document ρ} {next : String}
      (walked : LayoutWalk store id walk document)
      (names : document.layout? = some next)
      (found : store.get? next = some layout) :
      LayoutWalk store id (next :: walk) layout

/-- A document, or one of the layouts that it leads to, refers to a stored
document. -/
def Uses (store : Store ρ) (id target : String) : Prop :=
  ∃ walk document key mode label, store.LayoutWalk id walk document ∧
    document.Defers key { renderer := .reference mode target, label } ∧
    store.contains target = true

structure WellFormed (store : Store ρ) : Prop where
  builtin : store.DefersOnly Renderer.Builtin
  layout_concrete : ∀ id document, store.get? id = some document →
    ∀ deferred, ¬ document.Defers Document.layoutKey deferred
  layout_stored : ∀ id document layout, store.get? id = some document →
    document.layout? = some layout → store.contains layout = true
  walk_distinct : ∀ id walk document, store.LayoutWalk id walk document → walk.Nodup
  acyclic : ∀ id, ¬ Relation.TransGen store.Uses id id

theorem LayoutWalk.stored {store : Store ρ} {id : String} {walk : List String}
    {document : Document ρ} (walked : store.LayoutWalk id walk document) :
    ∃ source, store.get? source = some document := by
  cases walked with
  | start found => exact ⟨id, found⟩
  | @layout _ _ _ next _ _ found => exact ⟨next, found⟩

end Store

def Renderer.LeadsBelow (store : Store ρ) (rank : String → Nat) (bound : Nat) :
    Renderer ρ → Prop
  | .reference _ target => store.contains target = true → rank target < bound
  | .template _ => True
  | .supplied _ => False

instance (store : Store ρ) (rank : String → Nat) (bound : Nat) :
    DecidablePred (Renderer.LeadsBelow store rank bound)
  | .reference _ target =>
      inferInstanceAs (Decidable (store.contains target = true → rank target < bound))
  | .template _ => .isTrue trivial
  | .supplied _ => .isFalse id

namespace Store

/-- Layouts and references only lead to documents of lower rank. -/
def RankedBy (store : Store ρ) (rank : String → Nat) : Prop :=
  ∀ id ∈ store.ids, ∀ document ∈ store.get? id,
    document.DefersOnly (Renderer.LeadsBelow store rank (rank id)) ∧
    (document.get? Document.layoutKey).bind Value.deferred? = none ∧
    ∀ layout ∈ document.layout?,
      store.contains layout = true ∧ rank layout < rank id

instance (store : Store ρ) (rank : String → Nat) : Decidable (store.RankedBy rank) :=
  inferInstanceAs (Decidable (∀ id ∈ store.ids, ∀ document ∈ store.get? id, _))

theorem RankedBy.of_get? {store : Store ρ} {rank : String → Nat}
    (ranked : store.RankedBy rank) {id : String} {document : Document ρ}
    (found : store.get? id = some document) :
    document.DefersOnly (Renderer.LeadsBelow store rank (rank id)) ∧
    (document.get? Document.layoutKey).bind Value.deferred? = none ∧
    ∀ layout ∈ document.layout?,
      store.contains layout = true ∧ rank layout < rank id :=
  ranked id (mem_ids_of_get? found) document found

theorem LayoutWalk.lowest {store : Store ρ} {rank : String → Nat}
    (ranked : store.RankedBy rank) {id : String} {walk : List String}
    {document : Document ρ} (walked : store.LayoutWalk id walk document) :
    walk.Nodup ∧ ∃ source, store.get? source = some document ∧
      rank source ≤ rank id ∧ ∀ visited ∈ walk, rank source ≤ rank visited := by
  induction walked with
  | start found => exact ⟨List.nodup_nil, id, found, Nat.le_refl _, nofun⟩
  | @layout walk document layout next walked names found induction =>
      obtain ⟨distinct, source, located, below, lowest⟩ := induction
      obtain ⟨-, -, layouts⟩ := ranked.of_get? located
      obtain ⟨-, lower⟩ := layouts next names
      refine ⟨List.nodup_cons.mpr ⟨?_, distinct⟩, next, found, by omega, ?_⟩
      · intro member
        have least := lowest next member
        omega
      · intro visited member
        rcases List.mem_cons.mp member with rfl | member
        · exact Nat.le_refl _
        · have least := lowest visited member
          omega

theorem Uses.rank_lt {store : Store ρ} {rank : String → Nat}
    (ranked : store.RankedBy rank) {id target : String}
    (uses : store.Uses id target) : rank target < rank id := by
  obtain ⟨walk, document, key, mode, label, walked, defers, stored⟩ := uses
  obtain ⟨-, source, located, below, -⟩ := walked.lowest ranked
  obtain ⟨only, -, -⟩ := ranked.of_get? located
  have lower : rank target < rank source := only key _ defers stored
  omega

theorem rank_lt_of_transGen {store : Store ρ} {rank : String → Nat}
    (ranked : store.RankedBy rank) {id target : String}
    (path : Relation.TransGen store.Uses id target) : rank target < rank id := by
  induction path with
  | single uses => exact uses.rank_lt ranked
  | tail _ uses induction => exact Nat.lt_trans (uses.rank_lt ranked) induction

theorem WellFormed.of_rank {store : Store ρ} {rank : String → Nat}
    (ranked : store.RankedBy rank) : store.WellFormed where
  builtin := by
    intro id document found key deferred defers
    have below := (ranked.of_get? found).1 key deferred defers
    cases kind : deferred.renderer with
    | reference mode target => trivial
    | template template => trivial
    | supplied renderer =>
        rw [kind] at below
        exact below
  layout_concrete := by
    intro id document found deferred defers
    have concrete := (ranked.of_get? found).2.1
    rw [Document.deferred?_eq_some.mpr defers] at concrete
    cases concrete
  layout_stored := by
    intro id document layout found names
    exact ((ranked.of_get? found).2.2 layout names).1
  walk_distinct := by
    intro id walk document walked
    exact (walked.lowest ranked).1
  acyclic := by
    intro id cycle
    exact Nat.lt_irrefl _ (rank_lt_of_transGen ranked cycle)

end Store

/-- No entry names a layout in the place of the document's own. -/
def LeavesLayout (extra : Option (Document ρ)) : Prop :=
  (extra.getD .empty).get? Document.layoutKey = none

theorem Render.handedOver_leavesLayout (mode : Mode) (context : Document ρ)
    (key : String) : LeavesLayout (handedOver mode context key) := by
  cases mode with
  | mixin => rfl
  | partialView => exact Document.get?_filter_of_dropped (by simp)
  | embed => rfl

namespace Composition

/-- The layouts merged so far are those that the document names one after the
other, and no other layout comes next. -/
structure OnWalk (store : Store ρ) (id : String) (composition : Composition ρ) :
    Prop where
  walked : store.LayoutWalk id composition.used composition.top.document
  layout : composition.current.layout? = none ∨
    composition.current.layout? = composition.top.document.layout?

theorem begin_onWalk {store : Store ρ} {id : String} {start : Document ρ}
    (found : store.get? id = some start) {extra : Option (Document ρ)}
    (leaves : LeavesLayout extra) (chain : List String) :
    OnWalk store id (begin start extra chain) where
  walked := .start found
  layout := .inr (start.layout?_overlay_of_get? leaves)

theorem OnWalk.names {store : Store ρ} {id : String} {composition : Composition ρ}
    (onWalk : OnWalk store id composition) {next : String}
    (names : composition.current.layout? = some next) :
    composition.top.document.layout? = some next := by
  rcases onWalk.layout with ended | kept
  · rw [ended] at names
    cases names
  · exact kept.symm.trans names

theorem OnWalk.exists_next {store : Store ρ} (wellFormed : store.WellFormed)
    {id : String} {composition : Composition ρ}
    (onWalk : OnWalk store id composition) {next : String}
    (names : composition.current.layout? = some next) :
    next ∉ composition.used ∧ ∃ layout, store.get? next = some layout := by
  obtain ⟨source, located⟩ := onWalk.walked.stored
  have named := onWalk.names names
  obtain ⟨layout, found⟩ := Store.exists_of_contains
    (wellFormed.layout_stored source _ next located named)
  have distinct := wellFormed.walk_distinct id _ _ (.layout onWalk.walked named found)
  exact ⟨(List.nodup_cons.mp distinct).1, layout, found⟩

variable [Extension ρ]

/-- What a mixin lays over the document has been rendered, so it names no layout. -/
theorem evaluation_layout? {store : Store ρ} {composition : Composition ρ}
    {key : String} {renderer : Renderer ρ} (builtin : renderer.Builtin)
    {value : Value ρ} {changed : Document ρ} {after : List String}
    (evaluated : composition.evaluation store key renderer =
      ((.ok value, changed), after)) :
    changed.layout? = none ∨ changed.layout? = composition.current.layout? := by
  cases renderer with
  | supplied renderer => exact builtin.elim
  | template template =>
      cases evaluated
      exact .inr rfl
  | reference mode target =>
      have result := Call.evaluation_reference store composition key mode target
      rw [evaluated] at result
      cases outcome : (composition.nestedCall key mode target).outcome store with
      | error error =>
          rw [outcome] at result
          cases result
      | ok found =>
          rw [outcome] at result
          cases found with
          | none =>
              cases result
              exact .inr rfl
          | some rendered =>
              cases result
              cases mode with
              | mixin =>
                  apply Document.layout?_overlay_of_layout?
                  rw [Document.layout?_erase _ (by decide)]
                  exact Call.layout?_eq_none_of_ok outcome
              | partialView => exact .inr rfl
              | embed => exact .inr rfl

theorem Step.onWalk {store : Store ρ} (wellFormed : store.WellFormed) {id : String}
    {composition next : Composition ρ} (step : Step store composition next)
    (onWalk : OnWalk store id composition) : OnWalk store id next := by
  obtain ⟨source, stored⟩ := onWalk.walked.stored
  cases step with
  | skip => exact ⟨onWalk.walked, onWalk.layout⟩
  | @evaluate key rest deferred value changed after pending defers evaluated =>
      refine ⟨onWalk.walked, ?_⟩
      have notLayout : key ≠ Document.layoutKey := by
        rintro rfl
        exact wellFormed.layout_concrete source _ stored deferred defers
      change (changed.insert key value).layout? = none ∨
        (changed.insert key value).layout? = composition.top.document.layout?
      rw [changed.layout?_insert notLayout]
      rcases evaluation_layout? (wellFormed.builtin source _ stored key deferred defers)
        evaluated with ended | kept
      · exact .inl ended
      · rw [kept]
        exact onWalk.layout
  | @merge next layout visited names unused found =>
      refine ⟨.layout onWalk.walked (onWalk.names names) found, .inr ?_⟩
      apply Document.layout?_overlay_of_get?
      rw [Document.get?_erase, if_pos rfl]

theorem evaluation_ne_error {store : Store ρ} {composition : Composition ρ}
    {key : String} {renderer : Renderer ρ} (builtin : renderer.Builtin)
    (answered : ∀ mode target, renderer = .reference mode target →
      ∃ found, (composition.nestedCall key mode target).outcome store = .ok found)
    (error : RenderError) :
    (composition.evaluation store key renderer).1.1 ≠ .error error := by
  cases renderer with
  | supplied renderer => exact builtin.elim
  | template template => exact nofun
  | reference mode target =>
      obtain ⟨found, outcome⟩ := answered mode target rfl
      rw [Call.evaluation_reference, outcome]
      cases found with
      | none => exact nofun
      | some rendered => exact nofun

end Composition

namespace Call

/-- A stored document is asked for, on a chain along which documents use each
other until one uses it. -/
structure OnPath (store : Store ρ) (call : Call ρ) (id : String) : Prop where
  asked : call.request = .stored id
  stored : store.contains id = true
  leaves : LeavesLayout call.extra
  path : ∀ visited ∈ call.chain, Relation.TransGen store.Uses visited id

theorem OnPath.exists_start {store : Store ρ} {call : Call ρ} {id : String}
    (onPath : call.OnPath store id) :
    ∃ start, store.get? id = some start ∧ store.start? call.request = some start := by
  obtain ⟨start, found⟩ := Store.exists_of_contains onPath.stored
  refine ⟨start, found, ?_⟩
  rw [onPath.asked]
  exact found

variable [Extension ρ]

theorem OnPath.onWalk {store : Store ρ} (wellFormed : store.WellFormed)
    {call : Call ρ} {id : String} (onPath : call.OnPath store id)
    {composition : Composition ρ} (reached : call.Reaches store composition) :
    composition.OnWalk store id := by
  refine reached.invariant ?first ?preserved
  case first =>
    intro start chain found enters
    rw [onPath.asked] at found
    exact Composition.begin_onWalk found onPath.leaves chain
  case preserved =>
    intro composition next reached step onWalk
    exact step.onWalk wellFormed onWalk

theorem OnPath.nestedCall {store : Store ρ} {call : Call ρ} {id : String}
    (onPath : call.OnPath store id) {composition : Composition ρ}
    (reached : call.Reaches store composition) {target : String}
    (uses : store.Uses id target) (stored : store.contains target = true)
    (key : String) (mode : Mode) :
    (composition.nestedCall key mode target).OnPath store target := by
  refine ⟨rfl, stored, Render.handedOver_leavesLayout mode composition.current key, ?_⟩
  obtain ⟨-, -, within⟩ := reached.chain_of_stored onPath.asked
  intro visited member
  change visited ∈ composition.chain at member
  rw [within] at member
  rcases List.mem_append.mp member with earlier | last
  · exact (onPath.path visited earlier).tail uses
  · obtain rfl := List.mem_singleton.mp last
    exact .single uses

/-- The induction is on what the calls ask for: the chain stays a path, so no
document on it is asked for again. -/
theorem OnPath.exists_ok {store : Store ρ} (wellFormed : store.WellFormed)
    {call : Call ρ} {id : String} (onPath : call.OnPath store id) :
    ∃ rendered, call.outcome store = .ok (some rendered) := by
  induction call using (asks_wellFounded store).induction generalizing id with
  | _ call induction =>
      obtain ⟨start, found, starts⟩ := onPath.exists_start
      have rule := call.returns store
      generalize call.outcome store = outcome at rule ⊢
      cases rule with
      | missing absent =>
          rw [starts] at absent
          cases absent
      | @visited other identifier located identified visited =>
          obtain rfl : start = other := Option.some.inj (starts.symm.trans located)
          obtain rfl : id = identifier :=
            Option.some.inj ((Store.id?_of_get? found).symm.trans identified)
          -- Whatever is on the chain leads to `id`, so `id` itself is not.
          exact absurd (onPath.path id visited) (wellFormed.acyclic id)
      | @composed final outcome reached stops =>
          have onWalk := onPath.onWalk wellFormed reached
          cases stops with
          | finished => exact ⟨final.current, rfl⟩
          | layoutUsed _ names used =>
              obtain ⟨unused, -⟩ := onWalk.exists_next wellFormed names
              exact absurd used unused
          | layoutMissing _ names _ missing =>
              obtain ⟨-, layout, held⟩ := onWalk.exists_next wellFormed names
              rw [missing] at held
              cases held
          | @evaluationFailed key rest deferred error _ _ pending defers evaluated =>
              obtain ⟨source, located⟩ := onWalk.walked.stored
              refine absurd (congrArg (fun result => result.1.1) evaluated)
                (Composition.evaluation_ne_error
                  (wellFormed.builtin source _ located key deferred defers) ?_ error)
              intro mode target kind
              obtain ⟨renderer, label⟩ := deferred
              cases kind
              cases stored : store.contains target with
              | false =>
                  exact ⟨none, outcome_of_missing (Store.get?_of_not_contains stored)⟩
              | true =>
                  have uses : store.Uses id target :=
                    ⟨_, _, key, mode, label, onWalk.walked, defers, stored⟩
                  obtain ⟨rendered, returned⟩ := induction _
                    (.reference reached pending defers)
                    (onPath.nestedCall reached uses stored key mode)
                  exact ⟨some rendered, returned⟩

end Call

/-- Every document of a well-formed site renders. -/
theorem Engine.render_ok_of_wellFormed [Extension ρ] {engine : Engine ρ}
    (wellFormed : engine.store.WellFormed) {id : String}
    (stored : engine.store.contains id = true) {extra : Option (Document ρ)}
    (leaves : LeavesLayout extra) :
    ∃ rendered, engine.render (.stored id) extra = .ok (some rendered) := by
  have onPath : Call.OnPath engine.store ⟨.stored id, extra, []⟩ id :=
    ⟨rfl, stored, leaves, nofun⟩
  exact onPath.exists_ok wellFormed

/-- The frame is a layout and is referred to besides, and so is the note: three
times on the page, and by way of the sidebar. Nothing is stored as `gone`. -/
def gallery : Store Empty :=
  ([ .ofEntries [("id", .string "page"), ("layout", .string "frame"),
        ("sidebar", .deferred { renderer := .reference .mixin "sidebar" }),
        ("first", .deferred { renderer := .reference .embed "note" }),
        ("second", .deferred { renderer := .reference .partialView "note" }),
        ("third", .deferred { renderer := .reference .mixin "note" }),
        ("fourth", .deferred { renderer := .reference .embed "frame" }),
        ("fifth", .deferred { renderer := .reference .mixin "gone" })],
      .ofEntries [("id", .string "sidebar"), ("layout", .string "frame"),
        ("content", .deferred { renderer := .reference .embed "note" })],
      .ofEntries [("id", .string "note"), ("content", .string "Note")],
      .ofEntries [("id", .string "frame"),
        ("content", .deferred { renderer := .template (.compile "[$content$]") })] ]
    : List (Document Empty)).foldl (fun store document => (store.add document).1) .empty

def galleryRank (id : String) : Nat :=
  if id = "page" then 2 else if id = "sidebar" then 1 else 0

theorem gallery_renders :
    gallery.WellFormed ∧ gallery.contains "page" = true ∧
      ∃ rendered, Engine.render { store := gallery } (.stored "page")
        (some (.ofEntries [("title", .string "Extra")])) = .ok (some rendered) := by
  have wellFormed : gallery.WellFormed :=
    .of_rank (show gallery.RankedBy galleryRank by decide +kernel)
  have stored : gallery.contains "page" = true := by decide +kernel
  exact ⟨wellFormed, stored, Engine.render_ok_of_wellFormed wellFormed stored rfl⟩

end Compositor
