import Compositor.Proofs.ChainRestored

namespace Compositor

namespace Render

variable {ρ : Type}

/-! Rendering on a chain depends on nested renders on that chain only. -/

section

variable {nested other : Nested ρ} {chain : List String}
  (keeps : ∀ id extra, KeepsChain (nested id extra))
  (agree : ∀ id extra, runOn (nested id extra) chain = runOn (other id extra) chain)
  (store : Store ρ)

include keeps agree

theorem runScript_congr (script : Script ρ) (context : Document ρ) :
    runIn (runScript nested store script) context chain =
      runIn (runScript other store script) context chain := by
  induction script generalizing context with
  | give value => rfl
  | fail error => rfl
  | put changed next induction =>
      rw [runIn_runScript_put, runIn_runScript_put]
      exact induction changed
  | look id next induction =>
      rw [runIn_runScript_look, runIn_runScript_look]
      exact induction (store.get? id) context
  | render id extra next induction =>
      rw [runIn_runScript_render, runIn_runScript_render, ← agree, keeps id extra chain]
      exact induction (runOn (nested id extra) chain).1 context

variable [Extension ρ]

theorem evaluate_congr (key : String) (renderer : Renderer ρ)
    (context : Document ρ) :
    runIn (evaluate nested store key renderer) context chain =
      runIn (evaluate other store key renderer) context chain := by
  cases renderer with
  | reference mode target =>
      rw [runIn_evaluate_reference, runIn_evaluate_reference,
        runIn_evaluateReference, runIn_evaluateReference, agree]
  | template template => rfl
  | supplied renderer =>
      rw [runIn_evaluate_supplied, runIn_evaluate_supplied]
      exact runScript_congr keeps agree store _ context

theorem evaluateKey_congr (layout : Document ρ) (key : String)
    (context : Document ρ) :
    runIn (evaluateKey nested store layout key) context chain =
      runIn (evaluateKey other store layout key) context chain := by
  rw [runIn_evaluateKey, runIn_evaluateKey]
  cases (layout.get? key).bind Value.deferred? with
  | none => rfl
  | some deferred =>
      dsimp only
      rw [evaluate_congr keeps agree]

theorem evaluateKeys_congr (layout : Document ρ) (keys : List String)
    (context : Document ρ) :
    runIn (keys.forM (evaluateKey nested store layout)) context chain =
      runIn (keys.forM (evaluateKey other store layout)) context chain := by
  induction keys generalizing context with
  | nil => rfl
  | cons key rest induction =>
      have kept := evaluateKey_keepsChain keeps store layout key context chain
      rw [runIn_forM_cons, runIn_forM_cons, ← evaluateKey_congr keeps agree]
      generalize runIn (evaluateKey nested store layout key) context chain = outcome
        at kept ⊢
      obtain ⟨⟨error | value, changed⟩, after⟩ := outcome
      · rfl
      · cases kept
        exact induction changed

theorem resolve_congr (merged layout : Document ρ) :
    runOn (resolve nested store merged layout) chain =
      runOn (resolve other store merged layout) chain := by
  rw [runOn_resolve, runOn_resolve, evaluateKeys_congr keeps agree]

theorem resolve_bind_congr (merged layout : Document ρ)
    {next nextOther : Document ρ → RenderM (Document ρ)}
    (following : ∀ resolved, runOn (next resolved) chain = runOn (nextOther resolved) chain) :
    runOn (resolve nested store merged layout >>= next) chain =
      runOn (resolve other store merged layout >>= nextOther) chain := by
  have kept := resolve_keepsChain keeps store merged layout chain
  rw [runOn_bind, runOn_bind, ← resolve_congr keeps agree]
  generalize runOn (resolve nested store merged layout) chain = outcome at kept ⊢
  obtain ⟨error | resolved, after⟩ := outcome
  · rfl
  · cases kept
    exact following resolved

theorem applyLayouts_congr (remaining : Nat) (used : List String)
    (document : Document ρ) :
    runOn (applyLayouts nested store remaining used document) chain =
      runOn (applyLayouts other store remaining used document) chain := by
  induction remaining generalizing used document with
  | zero =>
      rw [applyLayouts_eq, applyLayouts_eq]
  | succ remaining induction =>
      rw [applyLayouts_eq, applyLayouts_eq]
      cases document.layout? with
      | none => rfl
      | some id =>
          dsimp only
          split
          · rfl
          · cases store.get? id with
            | none => rfl
            | some layout =>
                exact resolve_bind_congr keeps agree store _ layout
                  fun merged => induction (id :: used) merged

theorem compose_congr (start : Document ρ) (extra : Option (Document ρ)) :
    runOn (compose nested store start extra) chain =
      runOn (compose other store start extra) chain :=
  resolve_bind_congr keeps agree store _ start fun resolved =>
    applyLayouts_congr keeps agree store _ _ resolved

end

end Render

namespace Store

variable {ρ : Type}

/-- How many identifiers are indexed but not on the chain. -/
def unvisited (store : Store ρ) (chain : List String) : Nat :=
  (store.ids.filter fun id => id ∉ chain).length

theorem mem_ids_of_get? {store : Store ρ} {id : String} {document : Document ρ}
    (found : store.get? id = some document) : id ∈ store.ids := by
  have contained := store.get?_isSome id
  rw [found] at contained
  exact Entries.mem_keys_iff.mpr (Option.isSome_iff_exists.mp contained.symm)

theorem get?_eq_none_iff {store : Store ρ} {id : String} :
    store.get? id = none ↔ id ∉ store.ids := by
  rw [← Option.not_isSome_iff_eq_none, get?_isSome, ids, Entries.mem_keys_iff,
    ← Option.isSome_iff_exists]
  rfl

theorem exists_of_contains {store : Store ρ} {id : String}
    (stored : store.contains id = true) : ∃ document, store.get? id = some document :=
  Option.isSome_iff_exists.mp ((store.get?_isSome id).trans stored)

theorem get?_of_not_contains {store : Store ρ} {id : String}
    (missing : store.contains id = false) : store.get? id = none :=
  Option.isNone_iff_eq_none.mp
    (Option.isSome_eq_false_iff.mp ((store.get?_isSome id).trans missing))

theorem unvisited_le (store : Store ρ) (chain : List String) :
    store.unvisited chain ≤ store.ids.length :=
  List.length_filter_le _ _

theorem unvisited_append (store : Store ρ) (chain visited : List String) :
    store.unvisited (chain ++ visited) =
      ((store.ids.filter fun id => id ∉ chain).filter
        fun id => id ∉ visited).length := by
  rw [unvisited, List.filter_filter]
  simp [Bool.and_comm]

theorem unvisited_append_le (store : Store ρ) (chain visited : List String) :
    store.unvisited (chain ++ visited) ≤ store.unvisited chain := by
  rw [unvisited_append]
  exact List.length_filter_le _ _

theorem unvisited_append_lt {store : Store ρ} {chain : List String} {id : String}
    (indexed : id ∈ store.ids) (fresh : id ∉ chain) :
    store.unvisited (chain ++ [id]) < store.unvisited chain := by
  rw [unvisited_append, unvisited, List.length_filter_lt_length_iff_exists]
  exact ⟨id, by simp [indexed, fresh], by simp⟩

end Store

namespace Render

variable {ρ : Type} [Extension ρ] {store : Store ρ}

/-! A stored document on a chain: it is missing, being rendered, or composed. -/

theorem runOn_renderStored_missing {id : String} (missing : store.get? id = none)
    (depth : Nat) (extra : Option (Document ρ)) (chain : List String) :
    runOn (renderStored store depth id extra) chain = (.ok none, chain) := by
  cases depth with
  | zero =>
      have absent : store.contains id = false := by
        rw [← store.get?_isSome, missing]
        rfl
      simp [renderStored, absent]
  | succ depth => simp [renderStored, missing]

theorem runOn_renderStored_visited {id : String} {start : Document ρ}
    (found : store.get? id = some start) {chain : List String}
    (visited : id ∈ chain) (depth : Nat) (extra : Option (Document ρ)) :
    runOn (renderStored store depth id extra) chain =
      (.error (.recursiveReference id), chain) := by
  cases depth with
  | zero =>
      have present : store.contains id = true := by
        rw [← store.get?_isSome, found]
        rfl
      simp [renderStored, present]
  | succ depth =>
      rw [renderStored, found]
      dsimp only
      rw [runOn_map, runOn_renderDocument, Store.id?_of_get? found]
      simp only [visited, if_true]
      rfl

theorem runOn_renderStored_fresh {id : String} {start : Document ρ}
    (found : store.get? id = some start) {chain : List String}
    (fresh : id ∉ chain) (depth : Nat) (extra : Option (Document ρ)) :
    runOn (renderStored store (depth + 1) id extra) chain =
      ((runOn (compose (renderStored store depth) store start extra)
        (chain ++ [id])).1.map some, chain) := by
  have kept := compose_keepsChain (renderStored_keepsChain store depth)
    store start extra (chain ++ [id])
  rw [renderStored, found]
  dsimp only
  rw [runOn_map, runOn_renderDocument, Store.id?_of_get? found]
  simp only [fresh, if_false]
  rw [runOn_within, kept, List.dropLast_concat]

theorem runOn_renderStored_eq_of_fresh {depth other : Nat} {id : String}
    {extra : Option (Document ρ)} {chain : List String}
    (fresh : ∀ start, store.get? id = some start → id ∉ chain →
      runOn (renderStored store depth id extra) chain =
        runOn (renderStored store other id extra) chain) :
    runOn (renderStored store depth id extra) chain =
      runOn (renderStored store other id extra) chain := by
  cases found : store.get? id with
  | none =>
      rw [runOn_renderStored_missing found, runOn_renderStored_missing found]
  | some start =>
      by_cases visited : id ∈ chain
      · rw [runOn_renderStored_visited found visited,
          runOn_renderStored_visited found visited]
      · exact fresh start found visited

/-- Depth beyond the number of identifiers off the chain changes nothing. -/
theorem runOn_renderStored_depth {depth other : Nat} {chain : List String}
    (enough : store.unvisited chain ≤ depth)
    (enoughOther : store.unvisited chain ≤ other)
    (id : String) (extra : Option (Document ρ)) :
    runOn (renderStored store depth id extra) chain =
      runOn (renderStored store other id extra) chain := by
  induction depth generalizing other chain id extra with
  | zero =>
      apply runOn_renderStored_eq_of_fresh
      intro start found fresh
      have fewer := Store.unvisited_append_lt (Store.mem_ids_of_get? found) fresh
      omega
  | succ depth induction =>
      apply runOn_renderStored_eq_of_fresh
      intro start found fresh
      have fewer := Store.unvisited_append_lt (Store.mem_ids_of_get? found) fresh
      obtain ⟨shallower, rfl⟩ : ∃ shallower, other = shallower + 1 :=
        ⟨other - 1, by omega⟩
      have agree (inner : String) (innerExtra : Option (Document ρ)) :
          runOn (renderStored store depth inner innerExtra) (chain ++ [id]) =
            runOn (renderStored store shallower inner innerExtra) (chain ++ [id]) :=
        induction (by omega) (by omega) inner innerExtra
      rw [runOn_renderStored_fresh found fresh, runOn_renderStored_fresh found fresh,
        compose_congr (renderStored_keepsChain store depth) agree]

end Render

namespace Store

variable {ρ : Type}

def start? (store : Store ρ) : Request ρ → Option (Document ρ)
  | .stored id => store.get? id
  | .direct document => some document

variable [Extension ρ]

theorem renderStored_eq_nested (store : Store ρ) {depth : Nat}
    (enough : store.ids.length ≤ depth) :
    Render.renderStored store depth = store.nested := by
  funext id extra
  apply funext
  intro chain
  have bound := store.unvisited_le chain
  have indexed : store.ids.length = store.index.length := List.length_map _
  exact Render.runOn_renderStored_depth (by omega) (by omega) id extra

theorem nested_eq (store : Store ρ) (id : String) (extra : Option (Document ρ)) :
    store.nested id extra =
      match store.get? id with
      | none => pure none
      | some start => some <$> Render.renderDocument store.nested store start extra := by
  have deep := store.renderStored_eq_nested (Nat.le_refl store.ids.length)
  have deeper := store.renderStored_eq_nested (Nat.le_succ store.ids.length)
  have unfolded : Render.renderStored store (store.ids.length + 1) id extra =
      match store.get? id with
      | none => pure none
      | some start =>
          some <$> Render.renderDocument (Render.renderStored store store.ids.length)
            store start extra := rfl
  rw [deep] at unfolded
  exact (congrFun (congrFun deeper id) extra).symm.trans unfolded

theorem render_eq (store : Store ρ) (request : Request ρ)
    (extra : Option (Document ρ)) :
    store.render request extra =
      match store.start? request with
      | none => pure none
      | some start => some <$> Render.renderDocument store.nested store start extra := by
  cases request with
  | stored id => exact store.nested_eq id extra
  | direct document => rfl

end Store

end Compositor
