import Mathlib.Logic.Relation
import Compositor.Proofs.Call
import Compositor.Proofs.DecidableValues
import Compositor.Proofs.Overlay

namespace Compositor

variable {ρ : Type}

/-- The keys of documents laid over each other, the last merged first and the
start at the end. The key `layout` is left out of all but the last. -/
def composedKeys (extra : Document ρ) : List (Document ρ) → List String
  | [] => extra.keys
  | [start] => (start.keys ++ extra.keys).eraseDups
  | last :: below =>
      (last.keys ++ ((below ++ [extra]).flatMap Document.keys).filter
        fun key => key ≠ Document.layoutKey).eraseDups

theorem composedKeys_filter (extra document : Document ρ)
    (below : List (Document ρ)) :
    (composedKeys extra (document :: below)).filter
        (fun key => key ≠ Document.layoutKey) =
      ((((document :: below) ++ [extra]).flatMap Document.keys).filter
        fun key => key ≠ Document.layoutKey).eraseDups := by
  cases below with
  | nil =>
      rw [composedKeys, ← eraseDups_filter]
      simp
  | cons next rest =>
      rw [composedKeys, ← eraseDups_filter, List.filter_append, List.filter_filter]
      · simp
      · simp

theorem keys_subset_composedKeys (extra document : Document ρ)
    (below : List (Document ρ)) :
    document.keys ⊆ composedKeys extra (document :: below) := by
  intro key member
  cases below <;> simp [composedKeys, member]

/-- What is stored under a key other than `layout`: the value it was last
evaluated to, or else what stands first in the extra entries, the start and the
layouts in the order of their merges. -/
def composedValue (extra : Document ρ) (key : String) :
    List (Layer ρ) → Option (Value ρ)
  | [] => extra.get? key
  | layer :: below =>
      (layer.values.get? key).or
        ((composedValue extra key below).or (layer.document.get? key))

theorem composedValue_of_concrete (extra : Document ρ) (key : String)
    {layers : List (Layer ρ)}
    (concrete : ∀ layer ∈ layers, layer.values.get? key = none) :
    composedValue extra key layers =
      (extra :: (layers.map Layer.document).reverse).findSome?
        fun document => document.get? key := by
  induction layers with
  | nil => simp [composedValue]
  | cons layer below induction =>
      rw [composedValue, concrete layer (by simp),
        induction fun inner member => concrete inner (by simp [member]),
        List.map_cons, List.reverse_cons, ← List.cons_append,
        List.findSome?_append]
      simp

theorem composedValue_of_last (extra : Document ρ) (key : String)
    {later earlier : List (Layer ρ)} {layer : Layer ρ} {value : Value ρ}
    (concrete : ∀ inner ∈ later, inner.values.get? key = none)
    (evaluated : layer.values.get? key = some value) :
    composedValue extra key (later ++ layer :: earlier) = some value := by
  induction later with
  | nil => simp [composedValue, evaluated]
  | cons inner later induction =>
      rw [List.cons_append, composedValue, concrete inner (by simp),
        induction fun other member => concrete other (by simp [member])]
      simp

namespace Composition

def layers (composition : Composition ρ) : List (Layer ρ) :=
  composition.top :: composition.below

/-- The deferred keys of the layer that are no longer pending have a value, and
no others have one. -/
def Evaluated (layer : Layer ρ) (pending : List String) : Prop :=
  ∀ key, (∃ value, layer.values.get? key = some value) ↔
    (∃ deferred, layer.document.Defers key deferred) ∧ key ∉ pending

theorem Evaluated.get?_eq_none {layer : Layer ρ} {pending : List String}
    (evaluated : Evaluated layer pending) {key : String}
    (concrete : ∀ deferred, ¬ layer.document.Defers key deferred) :
    layer.values.get? key = none := by
  rw [Option.eq_none_iff_forall_ne_some]
  intro value found
  obtain ⟨⟨deferred, defers⟩, -⟩ := (evaluated key).mp ⟨value, found⟩
  exact concrete deferred defers

theorem composedValue_of_evaluated (extra : Document ρ) {key : String}
    {layers : List (Layer ρ)} (evaluated : ∀ layer ∈ layers, Evaluated layer [])
    (concrete : ∀ layer ∈ layers, ∀ deferred, ¬ layer.document.Defers key deferred) :
    composedValue extra key layers =
      (extra :: (layers.map Layer.document).reverse).findSome?
        fun document => document.get? key := by
  apply composedValue_of_concrete
  intro layer member
  exact (evaluated layer member).get?_eq_none (concrete layer member)

theorem composedValue_of_last_deferred (extra : Document ρ) {key : String}
    {later earlier : List (Layer ρ)} {layer : Layer ρ}
    (evaluated : ∀ inner ∈ later ++ layer :: earlier, Evaluated inner [])
    (defers : ∃ deferred, layer.document.Defers key deferred)
    (concrete : ∀ inner ∈ later, ∀ deferred, ¬ inner.document.Defers key deferred) :
    ∃ value, layer.values.get? key = some value ∧
      composedValue extra key (later ++ layer :: earlier) = some value := by
  have member : layer ∈ later ++ layer :: earlier := by simp
  obtain ⟨value, logged⟩ := (evaluated layer member key).mpr ⟨defers, List.not_mem_nil⟩
  refine ⟨value, logged, composedValue_of_last extra key ?_ logged⟩
  intro inner within
  exact (evaluated inner (by simp [within])).get?_eq_none (concrete inner within)

/-- Each layer keeps the values that its deferred entries were evaluated to. -/
structure Logged (composition : Composition ρ) : Prop where
  distinct : composition.pending.Nodup
  top : Evaluated composition.top composition.pending
  below : ∀ layer ∈ composition.below, Evaluated layer []

theorem evaluated_of_keys_subset {document : Document ρ} {pending : List String}
    (covered : document.keys ⊆ pending) :
    Evaluated { document } pending := by
  intro key
  constructor
  · rintro ⟨value, found⟩
    cases found
  · rintro ⟨⟨deferred, defers⟩, visited⟩
    exact absurd (covered ((document.mem_keys_iff key).mpr ⟨_, defers⟩)) visited

theorem begin_logged (start : Document ρ) (extra : Option (Document ρ))
    (chain : List String) : Logged (begin start extra chain) where
  distinct := Document.nodup_keys _
  top := evaluated_of_keys_subset (Document.keys_subset_overlay _ _)
  below := nofun

theorem Evaluated.skip {layer : Layer ρ} {key : String} {rest : List String}
    (evaluated : Evaluated layer (key :: rest))
    (concrete : ∀ deferred, ¬ layer.document.Defers key deferred) :
    Evaluated layer rest := by
  intro other
  rw [evaluated other]
  constructor
  · rintro ⟨defers, visited⟩
    exact ⟨defers, fun member => visited (List.mem_cons_of_mem key member)⟩
  · rintro ⟨⟨deferred, defers⟩, visited⟩
    refine ⟨⟨deferred, defers⟩, ?_⟩
    rw [List.mem_cons, not_or]
    exact ⟨fun equal => concrete deferred (equal ▸ defers), visited⟩

theorem Evaluated.record {layer : Layer ρ} {key : String} {rest : List String}
    (evaluated : Evaluated layer (key :: rest)) {deferred : Deferred ρ}
    (defers : layer.document.Defers key deferred) (once : key ∉ rest)
    (value : Value ρ) : Evaluated (layer.record key value) rest := by
  intro other
  change (∃ found, (layer.values.insert key value).get? other = some found) ↔ _
  rw [Entries.get?_insert]
  by_cases equal : key = other
  · subst equal
    rw [if_pos rfl]
    exact ⟨fun _ => ⟨⟨deferred, defers⟩, once⟩, fun _ => ⟨value, rfl⟩⟩
  · rw [if_neg equal, evaluated other, List.mem_cons, not_or]
    exact and_congr_right fun _ =>
      ⟨fun visited => visited.2, fun visited => ⟨Ne.symm equal, visited⟩⟩

/-- The current document is what its layers amount to, and the layer at the top
will leave it in place. -/
structure Layered (extra : Document ρ) (composition : Composition ρ) : Prop where
  leaves : composition.top.document.DefersOnly Renderer.LeavesContext
  keys : composition.current.keys =
    composedKeys extra (composition.layers.map Layer.document)
  value : ∀ key, key ≠ Document.layoutKey →
    composition.current.get? key = composedValue extra key composition.layers

theorem begin_layered {start : Document ρ}
    (leaves : start.DefersOnly Renderer.LeavesContext) (extra : Option (Document ρ))
    (chain : List String) :
    Layered (extra.getD .empty) (begin start extra chain) where
  leaves := leaves
  keys := by
    change (start.overlay (extra.getD .empty)).keys = _
    rw [Document.keys_overlay]
    change _ = (start.keys ++ (extra.getD .empty).keys).eraseDups
    rw [eraseDups_append_of_nodup start.nodup_keys,
      eraseDups_of_nodup (Document.nodup_keys _)]
  value := by
    intro key _
    change (start.overlay (extra.getD .empty)).get? key = _
    rw [Document.get?_overlay]
    rfl

variable [Extension ρ]

theorem Step.logged {store : Store ρ} {composition next : Composition ρ}
    (step : Step store composition next) (logged : Logged composition) :
    Logged next := by
  obtain ⟨distinct, top, below⟩ := logged
  cases step with
  | skip pending concrete =>
      rw [pending] at distinct top
      exact ⟨(List.nodup_cons.mp distinct).2, top.skip concrete, below⟩
  | evaluate pending defers =>
      rw [pending] at distinct top
      obtain ⟨once, distinct⟩ := List.nodup_cons.mp distinct
      exact ⟨distinct, top.record defers once _, below⟩
  | merge visited =>
      rw [visited] at top
      refine ⟨Document.nodup_keys _,
        evaluated_of_keys_subset (Document.keys_subset_overlay _ _), ?_⟩
      intro layer member
      rcases List.mem_cons.mp member with rfl | member
      · exact top
      · exact below layer member

theorem evaluation_current (store : Store ρ) (composition : Composition ρ)
    (key : String) {renderer : Renderer ρ} (leaves : renderer.LeavesContext) :
    (composition.evaluation store key renderer).1.2 = composition.current := by
  cases renderer with
  | template template => rfl
  | supplied renderer => exact leaves.elim
  | reference mode target =>
      rw [Call.evaluation_reference]
      obtain error | _ | rendered := (composition.nestedCall key mode target).outcome store
      · rfl
      · rfl
      · cases mode with
        | mixin => exact leaves.elim
        | partialView => rfl
        | embed => rfl

theorem Step.layered {store : Store ρ}
    (leaves : store.DefersOnly Renderer.LeavesContext)
    {extra : Document ρ} {composition next : Composition ρ}
    (step : Step store composition next) (layered : Layered extra composition) :
    Layered extra next := by
  cases step with
  | skip => exact ⟨layered.leaves, layered.keys, layered.value⟩
  | @evaluate key rest deferred value changed after pending defers evaluated =>
      have unchanged : changed = composition.current := by
        have kept := evaluation_current store composition key
          (layered.leaves key deferred defers)
        rw [evaluated] at kept
        exact kept
      subst unchanged
      refine ⟨layered.leaves, ?_, ?_⟩
      · change (composition.current.insert key value).keys = _
        have present : key ∈ composition.current.keys := by
          rw [layered.keys]
          apply keys_subset_composedKeys
          exact (Document.mem_keys_iff _ _).mpr ⟨_, defers⟩
        rw [Document.keys_insert_of_mem present]
        exact layered.keys
      · intro other notLayout
        change (composition.current.insert key value).get? other = _
        rw [Document.get?_insert, layered.value other notLayout]
        change _ = (((composition.top.values.insert key value).get? other).or _)
        rw [Entries.get?_insert]
        by_cases equal : key = other
        · simp [equal]
        · rw [if_neg equal, if_neg equal]
          rfl
  | @merge id layout visited names unused found =>
      refine ⟨leaves id layout found, ?_, ?_⟩
      · change (layout.overlay (composition.current.erase Document.layoutKey)).keys = _
        rw [Document.keys_overlay, Document.keys_erase, layered.keys]
        change layout.keys ++ ((composedKeys extra (_ :: _)).filter _).filter _ = _
        rw [composedKeys_filter]
        change _ = (layout.keys ++ _).eraseDups
        rw [eraseDups_append_of_nodup layout.nodup_keys]
        rfl
      · intro key notLayout
        change (layout.overlay (composition.current.erase Document.layoutKey)).get? key = _
        rw [Document.get?_overlay, Document.get?_erase, if_neg (Ne.symm notLayout),
          layered.value key notLayout]
        rfl

end Composition

namespace Call

variable [Extension ρ]

/-- When the layer of the document was on top of those below, the entry that the
document defers under the key was evaluated to the value. -/
def EvaluatedTo (store : Store ρ) (call : Call ρ) (final : Composition ρ)
    (document : Document ρ) (below : List (Layer ρ)) (key : String)
    (value : Value ρ) : Prop :=
  ∃ moment rest deferred, call.Reaches store moment ∧
    Composition.Steps store moment final ∧
    moment.top.document = document ∧ moment.below = below ∧
    moment.pending = key :: rest ∧ document.Defers key deferred ∧
    (moment.evaluation store key deferred.renderer).1.1 = .ok value

theorem EvaluatedTo.step {store : Store ρ} {call : Call ρ}
    {composition next : Composition ρ} {document : Document ρ}
    {below : List (Layer ρ)} {key : String} {value : Value ρ}
    (evaluated : call.EvaluatedTo store composition document below key value)
    (step : Composition.Step store composition next) :
    call.EvaluatedTo store next document below key value := by
  obtain ⟨moment, rest, deferred, reached, steps, facts⟩ := evaluated
  exact ⟨moment, rest, deferred, reached, steps.tail step, facts⟩

theorem Reaches.evaluatedTo {store : Store ρ} {call : Call ρ}
    {composition : Composition ρ} (reached : call.Reaches store composition) :
    ∀ later layer earlier, composition.layers = later ++ layer :: earlier →
      ∀ key value, layer.values.get? key = some value →
        call.EvaluatedTo store composition layer.document earlier key value := by
  refine reached.invariant ?first ?preserved
  case first =>
    intro start chain found enters later layer earlier split key value logged
    cases later with
    | nil => cases split; cases logged
    | cons _ later => cases later <;> cases split
  case preserved =>
    intro composition next reached step induction later layer earlier split key value
      logged
    cases step with
    | skip pending concrete =>
        exact (induction later layer earlier split key value logged).step
          (.skip pending concrete)
    | @evaluate visited rest deferred result changed after pending defers evaluated =>
        have step := Composition.Step.evaluate pending defers evaluated
        cases later with
        | nil =>
            cases split
            change (composition.top.values.insert visited result).get? key = some value
              at logged
            rw [Entries.get?_insert] at logged
            split at logged
            · rename_i equal
              cases logged
              subst equal
              refine ⟨composition, rest, deferred, reached, .single step, rfl, rfl,
                pending, defers, ?_⟩
              rw [evaluated]
            · exact (induction [] _ _ rfl key value logged).step step
        | cons _ later =>
            obtain ⟨-, split⟩ := List.cons.inj split
            have whole : composition.layers = composition.top :: later ++ layer :: earlier :=
              congrArg (List.cons composition.top) split
            exact (induction _ layer earlier whole key value logged).step step
    | @merge id layout visited names unused found =>
        have step := Composition.Step.merge visited names unused found
        cases later with
        | nil => cases split; cases logged
        | cons _ later =>
            obtain ⟨-, split⟩ := List.cons.inj split
            exact (induction later layer earlier split key value logged).step step

theorem Reaches.logged {store : Store ρ} {call : Call ρ}
    {composition : Composition ρ} (reached : call.Reaches store composition) :
    composition.Logged :=
  reached.invariant (fun start chain _ _ => Composition.begin_logged start _ chain)
    fun _ _ _ step logged => step.logged logged

theorem Reaches.evaluated {store : Store ρ} {call : Call ρ}
    {composition : Composition ρ} (reached : call.Reaches store composition)
    (visited : composition.pending = []) :
    ∀ layer ∈ composition.layers, Composition.Evaluated layer [] := by
  have logged := reached.logged
  intro layer member
  rcases List.mem_cons.mp member with rfl | member
  · exact visited ▸ logged.top
  · exact logged.below layer member

theorem Reaches.exists_start {store : Store ρ} {call : Call ρ}
    {composition : Composition ρ} (reached : call.Reaches store composition) :
    ∃ layouts start, composition.layers = layouts ++ [start] ∧
      store.start? call.request = some start.document := by
  refine reached.invariant ?first ?preserved
  case first =>
    intro start chain found enters
    exact ⟨[], { document := start }, rfl, found⟩
  case preserved =>
    intro composition next reached step induction
    obtain ⟨layouts, start, split, found⟩ := induction
    cases step with
    | skip => exact ⟨layouts, start, split, found⟩
    | @evaluate key rest deferred value changed after =>
        cases layouts with
        | nil =>
            obtain ⟨rfl, below⟩ := List.cons.inj split
            exact ⟨[], composition.top.record key value,
              congrArg (List.cons (composition.top.record key value)) below, found⟩
        | cons _ layouts =>
            obtain ⟨-, below⟩ := List.cons.inj split
            exact ⟨composition.top.record key value :: layouts, start,
              congrArg (List.cons (composition.top.record key value)) below, found⟩
    | @merge id layout =>
        exact ⟨{ document := layout } :: layouts, start,
          congrArg (List.cons ({ document := layout } : Layer ρ)) split, found⟩

theorem Reaches.layered {store : Store ρ}
    (leaves : store.DefersOnly Renderer.LeavesContext)
    {call : Call ρ}
    (startLeaves : ∀ start, store.start? call.request = some start →
      start.DefersOnly Renderer.LeavesContext)
    {composition : Composition ρ} (reached : call.Reaches store composition) :
    composition.Layered (call.extra.getD .empty) :=
  reached.invariant
    (fun start chain found _ =>
      Composition.begin_layered (startLeaves start found) call.extra chain)
    fun _ _ _ step layered => step.layered leaves layered

end Call

/-- The rendered document in closed form, with the layer of the start and those
of its layouts in the order of their merges. -/
structure ComposedOf [Extension ρ] (store : Store ρ) (call : Call ρ)
    (final : Composition ρ) (rendered : Document ρ) (start : Layer ρ)
    (layouts : List (Layer ρ)) : Prop where
  found : store.start? call.request = some start.document
  layers : final.layers = (start :: layouts).reverse
  keys : rendered.keys = composedKeys (call.extra.getD .empty)
    ((start :: layouts).map Layer.document).reverse
  concrete : ∀ key, key ≠ Document.layoutKey →
    (∀ layer ∈ start :: layouts, ∀ deferred, ¬ layer.document.Defers key deferred) →
    rendered.get? key =
      (call.extra.getD .empty :: (start :: layouts).map Layer.document).findSome?
        fun document => document.get? key
  deferred : ∀ key, key ≠ Document.layoutKey → ∀ earlier layer later,
    start :: layouts = earlier ++ layer :: later →
    (∃ deferred, layer.document.Defers key deferred) →
    (∀ inner ∈ later, ∀ deferred, ¬ inner.document.Defers key deferred) →
    ∃ value, rendered.get? key = some value ∧
      call.EvaluatedTo store final layer.document earlier.reverse key value

/-- Where nothing changes the document that it is evaluated in, every run that
renders a document composes it in the same closed form. -/
theorem composedOf_of_render_ok [Extension ρ] {store : Store ρ}
    (leaves : store.DefersOnly Renderer.LeavesContext)
    {call : Call ρ}
    (startLeaves : ∀ start, store.start? call.request = some start →
      start.DefersOnly Renderer.LeavesContext)
    {rendered : Document ρ}
    (returned : call.outcome store = .ok (some rendered)) :
    (∃ final, call.Reaches store final ∧ final.Stops store (.ok rendered)) ∧
    ∀ final, call.Reaches store final → final.Stops store (.ok rendered) →
      ∃ start layouts, ComposedOf store call final rendered start layouts := by
  refine ⟨Call.exists_reaches_of_ok returned, ?_⟩
  intro final reached stops
  obtain ⟨layouts, start, split, found⟩ := reached.exists_start
  have layered := reached.layered leaves startLeaves
  obtain ⟨visited, -⟩ := stops
  have evaluated := reached.evaluated visited
  have layers : final.layers = (start :: layouts.reverse).reverse := by
    rw [split, List.reverse_cons, List.reverse_reverse]
  refine ⟨start, layouts.reverse, found, layers, ?keys, ?concrete, ?deferred⟩
  case keys =>
    rw [layered.keys, layers, List.map_reverse]
  case concrete =>
    intro key notLayout concrete
    rw [layered.value key notLayout,
      Composition.composedValue_of_evaluated _ evaluated, layers, List.map_reverse,
      List.reverse_reverse]
    intro layer member
    apply concrete layer
    rwa [layers, List.mem_reverse] at member
  case deferred =>
    intro key notLayout earlier layer later division defers concrete
    have order : final.layers = later.reverse ++ layer :: earlier.reverse := by
      rw [layers, division]
      simp
    rw [order] at evaluated
    obtain ⟨value, logged, composed⟩ :=
      Composition.composedValue_of_last_deferred (call.extra.getD .empty) evaluated
        defers fun inner within => concrete inner (List.mem_reverse.mp within)
    refine ⟨value, ?_, reached.evaluatedTo _ layer _ order key value logged⟩
    rw [layered.value key notLayout, order]
    exact composed

/-- A page in two layouts. The outer one wraps the content of the inner one, and
both the page and the outer layout put off the menu. -/
def magazine : Store Empty :=
  ([ .ofEntries [("id", .string "page"), ("layout", .string "inner"),
        ("content", .string "Text"), ("title", .string "Page"),
        ("menu", .deferred { renderer := .reference .embed "menu" })],
      .ofEntries [("id", .string "inner"), ("title", .string "Inner"),
        ("layout", .string "outer"), ("note", .string "Inner"),
        ("content", .deferred { renderer := .template (.compile "<$content$>") })],
      .ofEntries [("menu", .deferred { renderer := .reference .partialView "menu" }),
        ("id", .string "outer"), ("note", .string "Outer"),
        ("content", .deferred { renderer := .template (.compile "[$content$]") })],
      .ofEntries [("id", .string "menu"),
        ("content", .deferred { renderer := .template (.compile "$note$ menu") })] ]
    : List (Document Empty)).foldl (fun store document => (store.add document).1) .empty

def magazineExtra : Document Empty :=
  .ofEntries [("title", .string "Extra"), ("menu", .string "none")]

def magazinePage : Document Empty :=
  .ofEntries [("menu", .string "Inner menu"), ("id", .string "page"),
    ("note", .string "Inner"), ("content", .string "[<Text>]"),
    ("title", .string "Extra")]

theorem magazinePage_composedOf :
    magazine.DefersOnly Renderer.LeavesContext ∧
      Call.outcome magazine ⟨.stored "page", some magazineExtra, []⟩ =
        .ok (some magazinePage) ∧
      ∃ final start layouts, ComposedOf magazine
        ⟨.stored "page", some magazineExtra, []⟩ final magazinePage start layouts := by
  have leaves : magazine.DefersOnly Renderer.LeavesContext :=
    Store.defersOnly_of_documents (by decide +kernel)
  have startLeaves : ∀ start, magazine.start? (.stored "page") = some start →
      start.DefersOnly Renderer.LeavesContext := fun start found =>
    leaves "page" start found
  have returned : Call.outcome magazine ⟨.stored "page", some magazineExtra, []⟩ =
      .ok (some magazinePage) := by decide +kernel
  obtain ⟨⟨final, reached, stops⟩, closed⟩ :=
    composedOf_of_render_ok leaves startLeaves returned
  exact ⟨leaves, returned, final, closed final reached stops⟩

end Compositor
