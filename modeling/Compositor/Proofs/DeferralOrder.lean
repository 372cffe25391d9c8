import Mathlib.Data.List.Basic
import Mathlib.Data.Option.Basic
import Compositor.Proofs.DecidableValues
import Compositor.Proofs.Deferral
import Compositor.Proofs.Overlay
import Compositor.Proofs.Runs

namespace Compositor

variable {ρ : Type}

namespace Document

/-- What a document defers, in the order of its keys. -/
def deferrals (document : Document ρ) : Entries (Deferred ρ) :=
  document.entries.filterMap fun entry => entry.2.deferred?.map (entry.1, ·)

/-- What the document defers under a key, with the key. -/
def deferral? (document : Document ρ) (key : String) : Option (String × Deferred ρ) :=
  ((document.get? key).bind Value.deferred?).map (key, ·)

theorem filterMap_deferral?_keys (document : Document ρ) :
    document.keys.filterMap document.deferral? = document.deferrals := by
  rw [keys, Entries.keys, List.filterMap_map]
  apply List.filterMap_congr
  rintro ⟨key, value⟩ member
  have found : document.get? key = some value :=
    Entries.get?_of_mem document.distinct member
  simp only [Function.comp_apply, deferral?, found, Option.bind_some]

theorem deferral?_eq_none {document : Document ρ} {key : String}
    (absent : key ∉ document.keys) : document.deferral? key = none := by
  rw [deferral?, get?, Entries.get?_eq_none_iff.mpr absent]
  rfl

/-- Keys that were added behind a document's own have nothing that it defers. -/
theorem filterMap_deferral?_of_begins {document merged : Document ρ}
    (begins : document.keys <+: merged.keys) :
    merged.keys.filterMap document.deferral? = document.deferrals := by
  obtain ⟨added, keys⟩ := begins
  have distinct := merged.nodup_keys
  rw [← keys, List.nodup_append] at distinct
  have others : added.filterMap document.deferral? = [] := by
    rw [List.filterMap_eq_nil_iff]
    intro key member
    exact deferral?_eq_none fun held => distinct.2.2 key held key member rfl
  rw [← keys, List.filterMap_append, others, List.append_nil, filterMap_deferral?_keys]

theorem mem_deferrals_iff {document : Document ρ} {key : String} {deferred : Deferred ρ} :
    (key, deferred) ∈ document.deferrals ↔ document.Defers key deferred := by
  constructor
  · intro member
    obtain ⟨⟨name, value⟩, stored, found⟩ := List.mem_filterMap.mp member
    obtain ⟨other, held, equal⟩ := Option.map_eq_some_iff.mp found
    cases equal
    exact deferred?_eq_some.mp
      (Option.bind_eq_some_iff.mpr ⟨_, Entries.get?_of_mem document.distinct stored, held⟩)
  · intro defers
    exact List.mem_filterMap.mpr ⟨_, Entries.mem_of_get? defers, rfl⟩

theorem keys_deferrals_sublist (document : Document ρ) :
    document.deferrals.keys.Sublist document.keys := by
  obtain ⟨entries, distinct⟩ := document
  change (Entries.keys (List.filterMap _ entries)).Sublist entries.keys
  clear distinct
  induction entries with
  | nil => exact .slnil
  | cons entry rest induction =>
      rw [List.filterMap_cons]
      cases entry.2.deferred? with
      | none => exact .cons _ induction
      | some deferred => exact .cons_cons _ induction

end Document

namespace Render

variable [Extension ρ]

/-- Evaluates entries from left to right, each in the document that those before it
have left, and stores its value before the next one starts. -/
def evaluateEach (nested : Nested ρ) (store : Store ρ) :
    Entries (Deferred ρ) → Document ρ → List String →
      Except RenderError (Document ρ) × List String
  | [], context, chain => (.ok context, chain)
  | (key, deferred) :: rest, context, chain =>
      match runIn (evaluate nested store key deferred.renderer) context chain with
      | ((.ok value, changed), after) =>
          evaluateEach nested store rest (changed.insert key value) after
      | ((.error error, _), after) => (.error error, after)

/-- A key that is not deferred is passed over. -/
theorem runIn_evaluateKeys (nested : Nested ρ) (store : Store ρ) (layout : Document ρ)
    (keys : List String) (context : Document ρ) (chain : List String) :
    (match runIn (keys.forM (evaluateKey nested store layout)) context chain with
      | ((result, resolved), after) => (result.map fun _ => resolved, after)) =
      evaluateEach nested store (keys.filterMap layout.deferral?) context chain := by
  induction keys generalizing context chain with
  | nil => rfl
  | cons key rest induction =>
      rw [runIn_forM_cons, runIn_evaluateKey, List.filterMap_cons, Document.deferral?]
      cases (layout.get? key).bind Value.deferred? with
      | none => exact induction context chain
      | some deferred =>
          dsimp only [Option.map_some, evaluateEach]
          obtain ⟨⟨error | value, changed⟩, after⟩ :=
            runIn (evaluate nested store key deferred.renderer) context chain
          · rfl
          · exact induction (changed.insert key value) after

/-- The keys that the walk goes through are those of the merged document, but all that
comes of it is that the layout's own entries are evaluated. -/
theorem runOn_resolve_eq (nested : Nested ρ) (store : Store ρ)
    {merged layout : Document ρ} (begins : layout.keys <+: merged.keys)
    (chain : List String) :
    runOn (resolve nested store merged layout) chain =
      evaluateEach nested store layout.deferrals merged chain := by
  have walked := runIn_evaluateKeys nested store layout merged.keys merged chain
  rw [Document.filterMap_deferral?_of_begins begins] at walked
  exact (runOn_resolve nested store merged layout chain).trans walked

theorem keys_prefix_evaluate (nested : Nested ρ) (store : Store ρ) (key : String)
    {renderer : Renderer ρ} (builtin : renderer.Builtin) (context : Document ρ)
    (chain : List String) :
    context.keys <+:
      (runIn (evaluate nested store key renderer) context chain).1.2.keys := by
  cases renderer with
  | supplied renderer => exact builtin.elim
  | template template => exact List.prefix_rfl
  | reference mode target =>
      rw [runIn_evaluate_reference, runIn_evaluateReference]
      obtain ⟨error | _ | rendered, after⟩ :=
        runOn (nested target (handedOver mode context key)) chain
      · exact List.prefix_rfl
      · exact List.prefix_rfl
      · cases mode with
        | mixin => exact context.keys_prefix_overlay _
        | partialView => exact List.prefix_rfl
        | embed => exact List.prefix_rfl

theorem keys_prefix_evaluateEach {nested : Nested ρ} {store : Store ρ}
    {entries : Entries (Deferred ρ)}
    (builtin : ∀ entry ∈ entries, entry.2.renderer.Builtin)
    {context resolved : Document ρ} {chain after : List String}
    (evaluated : evaluateEach nested store entries context chain = (.ok resolved, after)) :
    context.keys <+: resolved.keys := by
  induction entries generalizing context chain with
  | nil =>
      cases evaluated
      exact List.prefix_rfl
  | cons entry rest induction =>
      obtain ⟨first, others⟩ := List.forall_mem_cons.mp builtin
      have kept := keys_prefix_evaluate nested store entry.1 first context chain
      rw [evaluateEach] at evaluated
      generalize runIn (evaluate nested store entry.1 entry.2.renderer) context chain =
        outcome at kept evaluated
      obtain ⟨⟨error | value, changed⟩, last⟩ := outcome
      · cases evaluated
      · exact kept.trans
          ((changed.keys_prefix_insert entry.1 value).trans (induction others evaluated))

/-- A walk over the keys of a merged document comes to evaluating, from left to right,
what the layout defers itself. No key of the merged document is lost or moved. -/
structure ResolvesInOrder (nested : Nested ρ) (store : Store ρ)
    (merged layout : Document ρ) (chain : List String) : Prop where
  own : ∀ key deferred, (key, deferred) ∈ layout.deferrals ↔ layout.Defers key deferred
  walked : merged.keys.filterMap layout.deferral? = layout.deferrals
  ordered : layout.deferrals.keys.Sublist layout.keys
  once : layout.deferrals.keys.Nodup
  resolved : runOn (resolve nested store merged layout) chain =
    evaluateEach nested store layout.deferrals merged chain
  keys_kept : ∀ resolved after,
    runOn (resolve nested store merged layout) chain = (.ok resolved, after) →
      merged.keys <+: resolved.keys

theorem resolvesInOrder_of_begins (nested : Nested ρ) (store : Store ρ)
    {merged layout : Document ρ} (builtin : layout.DefersOnly Renderer.Builtin)
    (begins : layout.keys <+: merged.keys) (chain : List String) :
    ResolvesInOrder nested store merged layout chain where
  own _ _ := Document.mem_deferrals_iff
  walked := Document.filterMap_deferral?_of_begins begins
  ordered := layout.keys_deferrals_sublist
  once := layout.nodup_keys.sublist layout.keys_deferrals_sublist
  resolved := runOn_resolve_eq nested store begins chain
  keys_kept := by
    intro resolved after run
    rw [runOn_resolve_eq nested store begins chain] at run
    refine keys_prefix_evaluateEach ?_ run
    rintro ⟨key, deferred⟩ member
    exact builtin key deferred (Document.mem_deferrals_iff.mp member)

end Render

/-- What a layout defers is evaluated once and in the layout's order, whether a document
was merged over the layout or the layout is the start of a composition with extra entries
over it. -/
theorem Store.resolve_inOrder [Extension ρ] (store : Store ρ) {layout : Document ρ}
    (builtin : layout.DefersOnly Renderer.Builtin) (chain : List String) :
    (∀ document, Render.ResolvesInOrder store.nested store (Render.merge document layout)
      layout chain) ∧
    ∀ extra : Option (Document ρ), Render.ResolvesInOrder store.nested store
      (layout.overlay (extra.getD .empty)) layout chain := by
  constructor
  · intro document
    exact Render.resolvesInOrder_of_begins store.nested store builtin
      (layout.keys_prefix_overlay _) chain
  · intro extra
    exact Render.resolvesInOrder_of_begins store.nested store builtin
      (layout.keys_prefix_overlay _) chain

/-- A mixin that is evaluated first gives the title a new value and adds two keys. -/
def gazette : Store Empty :=
  (Store.empty.add (.ofEntries [("id", .string "note"), ("title", .string "Mixed"),
    ("date", .string "May")])).1

def gazetteLayout : Document Empty :=
  .ofEntries [("aside", .deferred { renderer := .reference .mixin "note" }),
    ("rule", .null), ("title", .deferred { renderer := .template (.compile "[$title$]") }),
    ("footer", .deferred { renderer := .template (.compile "$title$, $date$") })]

def gazettePage : Document Empty :=
  .ofEntries [("layout", .string "gazette"), ("title", .string "Page"),
    ("content", .string "Text")]

def gazetteResolved : Document Empty :=
  .ofEntries [("aside", .map [("id", .string "note"), ("title", .string "Mixed"),
      ("date", .string "May")]),
    ("rule", .null), ("title", .string "[Mixed]"), ("footer", .string "[Mixed], May"),
    ("content", .string "Text"), ("id", .string "note"), ("date", .string "May")]

theorem gazette_inOrder :
    gazetteLayout.DefersOnly Renderer.Builtin ∧
      gazetteLayout.deferrals.keys = ["aside", "title", "footer"] ∧
      Render.runOn (Render.resolve gazette.nested gazette
        (Render.merge gazettePage gazetteLayout) gazetteLayout) [] =
          (.ok gazetteResolved, []) ∧
      (Render.merge gazettePage gazetteLayout).keys <+: gazetteResolved.keys := by
  have builtin : gazetteLayout.DefersOnly Renderer.Builtin := by decide +kernel
  have evaluated : Render.evaluateEach gazette.nested gazette gazetteLayout.deferrals
      (Render.merge gazettePage gazetteLayout) [] = (.ok gazetteResolved, []) := by
    decide +kernel
  obtain ⟨merged, -⟩ := gazette.resolve_inOrder builtin []
  have resolved := (merged gazettePage).resolved.trans evaluated
  exact ⟨builtin, by decide +kernel, resolved,
    (merged gazettePage).keys_kept gazetteResolved [] resolved⟩

end Compositor
