import Compositor.Proofs.Overlay
import Compositor.Proofs.Termination

namespace Compositor

variable {ρ : Type} {holds : Value ρ → Prop}

/-- A property of values in their final form: texts have it, maps have it with
their values, and nothing that is deferred has it. -/
structure Value.Final (holds : Value ρ → Prop) : Prop where
  string : ∀ text, holds (.string text)
  map : ∀ entries : Entries (Value ρ), (∀ entry ∈ entries, holds entry.2) →
    holds (.map entries)
  deferred : ∀ deferred, ¬ holds (.deferred deferred)

/-- A value in its final form, or one that evaluation puts into it. -/
def Value.Evaluable (holds : Value ρ → Prop) (value : Value ρ) : Prop :=
  holds value ∨ ∃ deferred, value = .deferred deferred ∧ deferred.renderer.Builtin

namespace Document

def All (document : Document ρ) (holds : Value ρ → Prop) : Prop :=
  ∀ key value, document.get? key = some value → holds value

theorem all_iff {document : Document ρ} :
    document.All holds ↔ ∀ entry ∈ document.entries, holds entry.2 := by
  constructor
  · rintro all ⟨key, value⟩ member
    exact all key value (Entries.get?_of_mem document.distinct member)
  · intro all key value found
    exact all _ (Entries.mem_of_get? found)

theorem all_empty : (empty : Document ρ).All holds := nofun

theorem All.mono {document : Document ρ} (all : document.All holds)
    {weaker : Value ρ → Prop} (implies : ∀ value, holds value → weaker value) :
    document.All weaker :=
  fun key value found => implies value (all key value found)

theorem All.insert {document : Document ρ} (all : document.All holds) (key : String)
    {value : Value ρ} (given : holds value) : (document.insert key value).All holds := by
  intro other found held
  rw [get?_insert] at held
  split at held
  · cases held
    exact given
  · exact all other found held

theorem All.overlay {lower upper : Document ρ} (below : lower.All holds)
    (above : upper.All holds) : (lower.overlay upper).All holds := by
  intro key value found
  rw [get?_overlay, Option.or_eq_some_iff] at found
  rcases found with laid | ⟨-, kept⟩
  · exact above key value laid
  · exact below key value kept

end Document

namespace Render

theorem holds_contentOrAll (final : Value.Final holds) {rendered : Document ρ}
    (all : rendered.All holds) : holds (contentOrAll rendered) := by
  unfold contentOrAll
  cases found : rendered.content? with
  | none => exact final.map _ (Document.all_iff.mp all)
  | some content => exact all _ content found

end Render

namespace Composition

/-- What is not in its final form yet is deferred by the layer at the top, under a
key that has not been visited. -/
structure Settling (holds : Value ρ → Prop) (composition : Composition ρ) : Prop where
  top : composition.top.document.All (Value.Evaluable holds)
  current : ∀ key value, composition.current.get? key = some value →
    holds value ∨ ∃ deferred, value = .deferred deferred ∧
      composition.top.document.Defers key deferred ∧ key ∈ composition.pending

theorem begin_settling {start : Document ρ}
    (evaluable : start.All (Value.Evaluable holds)) {extra : Option (Document ρ)}
    (concrete : (extra.getD .empty).All holds) (chain : List String) :
    Settling holds (begin start extra chain) where
  top := evaluable
  current := by
    intro key value found
    change (start.overlay (extra.getD .empty)).get? key = some value at found
    rw [Document.get?_overlay, Option.or_eq_some_iff] at found
    rcases found with laid | ⟨-, kept⟩
    · exact .inl (concrete key value laid)
    · refine (evaluable key value kept).imp_right ?_
      rintro ⟨deferred, rfl, -⟩
      exact ⟨deferred, rfl, kept, start.keys_subset_overlay _
        ((start.mem_keys_iff key).mpr ⟨_, kept⟩)⟩

theorem Settling.visibleContext {composition : Composition ρ}
    (settling : Settling holds composition) (key : String) :
    (Render.visibleContext composition.current key).All holds := by
  rw [Document.all_iff]
  rintro ⟨other, value⟩ member
  obtain ⟨stored, visible⟩ := List.mem_filter.mp member
  have found := Entries.get?_of_mem composition.current.distinct stored
  rcases settling.current other value found with done | ⟨deferred, rfl, -⟩
  · exact done
  · simp [Value.isDeferred, Value.deferred?] at visible

theorem Settling.handedOver {composition : Composition ρ}
    (settling : Settling holds composition) (mode : Mode) (key : String) :
    ((Render.handedOver mode composition.current key).getD .empty).All holds := by
  cases mode with
  | mixin => exact Document.all_empty
  | partialView => exact settling.visibleContext key
  | embed => exact Document.all_empty

theorem Settling.all {composition : Composition ρ}
    (settling : Settling holds composition) (visited : composition.pending = []) :
    composition.current.All holds := by
  intro key value found
  rcases settling.current key value found with done | ⟨-, -, -, member⟩
  · exact done
  · rw [visited] at member
    cases member

variable [Extension ρ] {store : Store ρ}

/-- Evaluation gives a value in its final form, and changes the document only by
such values. -/
theorem evaluation_holds (final : Value.Final holds) {composition : Composition ρ}
    {key : String} {renderer : Renderer ρ} (builtin : renderer.Builtin)
    (answers : ∀ mode target, renderer = .reference mode target → ∀ rendered,
      (composition.nestedCall key mode target).outcome store = .ok (some rendered) →
      rendered.All holds)
    {value : Value ρ} {changed : Document ρ} {after : List String}
    (evaluated : composition.evaluation store key renderer =
      ((.ok value, changed), after)) :
    holds value ∧ ∀ other found, changed.get? other = some found →
      holds found ∨ composition.current.get? other = some found := by
  cases renderer with
  | supplied renderer => exact builtin.elim
  | template template =>
      cases evaluated
      exact ⟨final.string _, fun _ _ => .inr⟩
  | reference mode target =>
      rcases Call.evaluation_reference_ok (congrArg Prod.fst evaluated) with
        ⟨-, rfl, rfl⟩ | ⟨rendered, outcome, rfl, rfl⟩
      · exact ⟨final.string _, fun _ _ => .inr⟩
      · have all := answers mode target rfl rendered outcome
        refine ⟨Render.holds_contentOrAll final all, ?_⟩
        cases mode with
        | partialView => exact fun _ _ => .inr
        | embed => exact fun _ _ => .inr
        | mixin =>
            intro other found held
            exact (Document.get?_of_overlay_erase held).imp_left (all other found)

theorem Step.settling (final : Value.Final holds)
    (evaluable : ∀ id document, store.get? id = some document →
      document.All (Value.Evaluable holds))
    {composition next : Composition ρ} (step : Step store composition next)
    (answers : ∀ key rest mode target label, composition.pending = key :: rest →
      composition.top.document.Defers key
        { renderer := .reference mode target, label } →
      ∀ rendered, (composition.nestedCall key mode target).outcome store =
        .ok (some rendered) → rendered.All holds)
    (settling : Settling holds composition) : Settling holds next := by
  cases step with
  | @skip key rest pending concrete =>
      -- The top defers nothing under a key that is skipped.
      refine ⟨settling.top, ?_⟩
      intro other value found
      refine (settling.current other value found).imp_right ?_
      rintro ⟨deferred, rfl, defers, member⟩
      rw [pending] at member
      rcases List.mem_cons.mp member with rfl | later
      · exact absurd defers (concrete deferred)
      · exact ⟨deferred, rfl, defers, later⟩
  | @evaluate key rest deferred value changed after pending defers evaluated =>
      have builtin : deferred.renderer.Builtin := by
        rcases settling.top key _ defers with done | ⟨other, equal, builtin⟩
        · exact absurd done (final.deferred deferred)
        · cases equal
          exact builtin
      obtain ⟨given, unchanged⟩ := evaluation_holds final builtin
        (fun mode target equal => answers key rest mode target deferred.label pending
          (by rw [← equal]; exact defers)) evaluated
      refine ⟨settling.top, ?_⟩
      intro other found held
      change (changed.insert key value).get? other = some found at held
      rw [Document.get?_insert] at held
      split at held
      · cases held
        exact .inl given
      · rename_i different
        rcases unchanged other found held with done | before
        · exact .inl done
        · refine (settling.current other found before).imp_right ?_
          rintro ⟨kept, rfl, defersOther, member⟩
          rw [pending] at member
          exact ⟨kept, rfl, defersOther,
            (List.mem_cons.mp member).resolve_left (Ne.symm different)⟩
  | @merge id layout visited names unused found =>
      -- Every key was visited, so only what the layout defers is open from here on.
      have all := settling.all visited
      refine ⟨evaluable id layout found, ?_⟩
      intro key value held
      rcases Document.get?_of_overlay_erase held with laid | kept
      · exact .inl (all key value laid)
      · refine (evaluable id layout found key value kept).imp_right ?_
        rintro ⟨deferred, rfl, -⟩
        exact ⟨deferred, rfl, kept, layout.keys_subset_overlay _
          ((layout.mem_keys_iff key).mpr ⟨_, kept⟩)⟩

end Composition

namespace Call

variable [Extension ρ] {store : Store ρ}

/-- If what the store, the request and the extra entries hold can be brought into
final form, what is rendered is in it. -/
theorem all_of_ok (final : Value.Final holds)
    (evaluable : ∀ id document, store.get? id = some document →
      document.All (Value.Evaluable holds))
    {call : Call ρ}
    (startEvaluable : ∀ start, store.start? call.request = some start →
      start.All (Value.Evaluable holds))
    (concrete : (call.extra.getD .empty).All holds)
    {rendered : Document ρ} (returned : call.outcome store = .ok (some rendered)) :
    rendered.All holds := by
  -- Along what calls ask for: what a reference is rendered to is in its final form
  -- before the composition goes on.
  induction call using (asks_wellFounded store).induction generalizing rendered with
  | _ call induction =>
      obtain ⟨last, reached, stops⟩ := exists_reaches_of_ok returned
      have settling : last.Settling holds := by
        refine reached.invariant ?first ?preserved
        case first =>
          intro start chain found enters
          exact Composition.begin_settling (startEvaluable start found) concrete chain
        case preserved =>
          intro composition next reached step settling
          refine step.settling final evaluable ?_ settling
          intro key rest mode target label pending defers nested outcome
          exact induction _ (.reference reached pending defers) (evaluable target)
            (settling.handedOver mode key) outcome
      cases stops with
      | finished visited => exact settling.all visited

end Call

end Compositor
