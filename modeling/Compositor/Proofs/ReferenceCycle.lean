import Compositor.Proofs.Overlay
import Compositor.Proofs.Termination

namespace Compositor

variable {ρ : Type}

/-- The document under the identifier holds, directly under some key, a reference
to a stored document. -/
def Store.RefersTo (store : Store ρ) (id target : String) : Prop :=
  ∃ document key mode label, store.get? id = some document ∧
    document.Defers key { renderer := .reference mode target, label } ∧
    store.contains target = true

/-- References lead from the identifier to a document that they lead back to. -/
def Store.ReachesCycle (store : Store ρ) (id : String) : Prop :=
  ∃ through, Relation.ReflTransGen store.RefersTo id through ∧
    Relation.TransGen store.RefersTo through through

theorem Store.ReachesCycle.exists_next {store : Store ρ} {id : String}
    (cyclic : store.ReachesCycle id) :
    ∃ target, store.RefersTo id target ∧ store.ReachesCycle target := by
  obtain ⟨through, path, cycle⟩ := cyclic
  cases path using Relation.ReflTransGen.head_induction_on with
  | refl =>
      obtain ⟨target, refers, back⟩ := Relation.TransGen.head'_iff.mp cycle
      exact ⟨target, refers, _, back, cycle⟩
  | head refers rest => exact ⟨_, refers, _, rest, cycle⟩

variable [Extension ρ]

namespace Composition

/-- From here on, with the same layer at the top, the entry that is deferred under
the key comes to be evaluated. -/
def ComesToEvaluate (store : Store ρ) (first : Composition ρ) (key : String)
    (deferred : Deferred ρ) : Prop :=
  ∃ moment rest value, Steps store first moment ∧
    moment.top.document = first.top.document ∧ moment.pending = key :: rest ∧
    (moment.evaluation store key deferred.renderer).1.1 = .ok value

theorem ComesToEvaluate.head {store : Store ρ} {first next : Composition ρ} {key : String}
    {deferred : Deferred ρ} (evaluates : ComesToEvaluate store next key deferred)
    (step : Step store first next)
    (same : next.top.document = first.top.document) :
    ComesToEvaluate store first key deferred := by
  obtain ⟨moment, rest, value, steps, document, facts⟩ := evaluates
  exact ⟨moment, rest, value, .head step steps, document.trans same, facts⟩

theorem Steps.comesToEvaluate {store : Store ρ} {first final : Composition ρ}
    (steps : Steps store first final) (visited : final.pending = [])
    {key : String} (member : key ∈ first.pending) {deferred : Deferred ρ}
    (defers : first.top.document.Defers key deferred) :
    ComesToEvaluate store first key deferred := by
  induction steps using Relation.ReflTransGen.head_induction_on with
  | refl =>
      rw [visited] at member
      cases member
  | head step steps induction =>
      cases step with
      | skip pending concrete =>
          rw [pending] at member
          rcases List.mem_cons.mp member with rfl | member
          · exact absurd defers (concrete deferred)
          · exact (induction member defers).head (.skip pending concrete) rfl
      | @evaluate head rest other value changed after pending heldBack evaluated =>
          rw [pending] at member
          rcases List.mem_cons.mp member with rfl | member
          · obtain rfl : other = deferred := by
              have equal := heldBack.symm.trans defers
              cases equal
              rfl
            exact ⟨_, rest, value, .refl, rfl, pending, by rw [evaluated]⟩
          · exact (induction member defers).head
              (.evaluate pending heldBack evaluated) rfl
      | merge visited =>
          -- Layouts are merged only when no key is left.
          rw [visited] at member
          cases member

end Composition

namespace Call

theorem nestedCall_ok {store : Store ρ} {composition : Composition ρ} {key : String}
    {mode : Mode} {target : String} {value : Value ρ}
    (evaluated :
      (composition.evaluation store key (.reference mode target)).1.1 = .ok value) :
    ∃ found, (composition.nestedCall key mode target).outcome store = .ok found := by
  rcases evaluation_reference_ok (Prod.ext evaluated rfl) with
    ⟨outcome, -⟩ | ⟨rendered, outcome, -⟩
  · exact ⟨none, outcome⟩
  · exact ⟨some rendered, outcome⟩

theorem exists_asks_of_ok {store : Store ρ} {call : Call ρ} {rendered : Document ρ}
    (returned : call.outcome store = .ok (some rendered)) {start : Document ρ}
    (found : store.start? call.request = some start) {key : String} {mode : Mode}
    {target : String} {label : Nat}
    (defers : start.Defers key { renderer := .reference mode target, label }) :
    ∃ inner result, call.Asks store inner ∧ inner.request = .stored target ∧
      inner.outcome store = .ok result := by
  obtain ⟨final, reached, stops⟩ := exists_reaches_of_ok returned
  obtain ⟨first, chain, located, enters, steps⟩ := reached
  obtain rfl : first = start := Option.some.inj (located.symm.trans found)
  obtain ⟨visited, -⟩ := stops
  have member : key ∈ (Composition.begin first call.extra chain).pending :=
    first.keys_subset_overlay _ ((first.mem_keys_iff key).mpr ⟨_, defers⟩)
  obtain ⟨moment, rest, value, path, document, pending, evaluated⟩ :=
    steps.comesToEvaluate visited member defers
  have held : moment.top.document.Defers key
      { renderer := .reference mode target, label } := by
    rw [document]
    exact defers
  obtain ⟨result, nested⟩ := nestedCall_ok evaluated
  exact ⟨_, result, .reference ⟨first, chain, found, enters, path⟩ pending held, rfl,
    nested⟩

/-- The induction is on what the calls ask for: from a document that reaches a
cycle they never come to one that refers to no other. -/
theorem not_ok_of_reachesCycle {store : Store ρ} (call : Call ρ) {id : String}
    (asked : call.request = .stored id) (cyclic : store.ReachesCycle id)
    (rendered : Document ρ) : call.outcome store ≠ .ok (some rendered) := by
  induction call using (asks_wellFounded store).induction generalizing id rendered with
  | _ call induction =>
      intro returned
      obtain ⟨target, refers, onward⟩ := cyclic.exists_next
      obtain ⟨document, key, mode, label, found, defers, stored⟩ := refers
      have starts : store.start? call.request = some document := by
        rw [asked]
        exact found
      obtain ⟨inner, result, asks, request, nested⟩ :=
        exists_asks_of_ok returned starts defers
      obtain ⟨next, located⟩ : ∃ next, store.start? inner.request = some next := by
        rw [request]
        exact Store.exists_of_contains stored
      cases result with
      | none =>
          rw [start?_eq_none_of_ok nested] at located
          cases located
      | some document => exact induction inner asks request onward document nested

end Call

/-- A cycle among references is never missed, wherever it is reached from. -/
theorem renderAlone_error_of_reachesCycle {store : Store ρ} {id : String}
    (cyclic : store.ReachesCycle id) (extra : Option (Document ρ)) :
    ∃ error, store.renderAlone (.stored id) extra = .error error := by
  obtain ⟨target, ⟨document, -, -, -, found, -⟩, -⟩ := cyclic.exists_next
  cases returned : store.renderAlone (.stored id) extra with
  | error error => exact ⟨error, rfl⟩
  | ok result =>
      cases result with
      | none =>
          have nothing : Call.outcome store ⟨.stored id, extra, []⟩ = .ok none := returned
          have absent : store.get? id = none := Call.start?_eq_none_of_ok nothing
          rw [found] at absent
          cases absent
      | some rendered =>
          exact absurd returned (Call.not_ok_of_reachesCycle
            ⟨.stored id, extra, []⟩ rfl cyclic rendered)

def roundabout : Store Empty :=
  ([ .ofEntries [("id", .string "page"), ("layout", .string "frame"),
        ("note", .deferred { renderer := .reference .embed "first" })],
      .ofEntries [("id", .string "first"),
        ("next", .deferred { renderer := .reference .mixin "second" })],
      .ofEntries [("id", .string "second"),
        ("back", .deferred { renderer := .reference .partialView "first" })],
      .ofEntries [("id", .string "frame"), ("title", .string "Frame")] ]
    : List (Document Empty)).foldl (fun store document => (store.add document).1) .empty

theorem roundabout_error :
    roundabout.ReachesCycle "page" ∧
      ∃ error, roundabout.renderAlone (.stored "page")
        (some (.ofEntries [("note", .string "none")])) = .error error := by
  have enters : roundabout.RefersTo "page" "first" :=
    ⟨_, "note", .embed, 0, rfl, rfl, rfl⟩
  have onward : roundabout.RefersTo "first" "second" :=
    ⟨_, "next", .mixin, 0, rfl, rfl, rfl⟩
  have back : roundabout.RefersTo "second" "first" :=
    ⟨_, "back", .partialView, 0, rfl, rfl, rfl⟩
  have cyclic : roundabout.ReachesCycle "page" :=
    ⟨"first", .single enters, .tail (.single onward) back⟩
  exact ⟨cyclic, renderAlone_error_of_reachesCycle cyclic _⟩

end Compositor
