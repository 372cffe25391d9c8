import Mathlib.Data.List.Basic
import Mathlib.Data.Option.Basic
import Compositor.Proofs.Call
import Compositor.Proofs.DecidableValues
import Compositor.Proofs.Overlay

namespace Compositor

variable {ρ : Type}

def Renderer.IsTemplate : Renderer ρ → Prop
  | .template _ => True
  | .reference _ _ | .supplied _ => False

instance : DecidablePred (Renderer.IsTemplate : Renderer ρ → Prop)
  | .template _ => .isTrue trivial
  | .reference _ _ | .supplied _ => .isFalse id

/-- The layout is given by a value, not by one that is deferred. -/
def Document.NamesConcretely (document : Document ρ) : Prop :=
  ∀ deferred, ¬ document.Defers Document.layoutKey deferred

theorem Document.namesConcretely_iff {document : Document ρ} :
    document.NamesConcretely ↔
      (document.get? Document.layoutKey).bind Value.deferred? = none := by
  rw [Option.eq_none_iff_forall_ne_some]
  exact forall_congr' fun deferred => not_congr Document.deferred?_eq_some.symm

instance (document : Document ρ) : Decidable document.NamesConcretely :=
  decidable_of_iff' _ Document.namesConcretely_iff

namespace Store

/-- The identifiers of layouts in turn: the one that the document names, then the
one that is named by the document stored under the last. -/
def layoutId? (store : Store ρ) (document : Document ρ) : Nat → Option String
  | 0 => document.layout?
  | count + 1 => (store.layoutId? document count).bind fun id =>
      (store.get? id).bind Document.layout?

/-- There are so many identifiers in turn that are all stored, and none twice. -/
def LeadsThrough (store : Store ρ) (document : Document ρ) (count : Nat) : Prop :=
  ∀ position < count, ∃ id, store.layoutId? document position = some id ∧
    store.contains id = true ∧
    ∀ earlier < position, store.layoutId? document earlier ≠ some id

/-- What comes after so many identifiers: no other, one that is not stored, or one
that was there before. -/
inductive EndsAfter (store : Store ρ) (document : Document ρ) (count : Nat) :
    Except RenderError Unit → Prop
  | last (ends : store.layoutId? document count = none) :
      EndsAfter store document count (.ok ())
  | missing {id : String} (names : store.layoutId? document count = some id)
      (unstored : store.contains id = false) :
      EndsAfter store document count (.error (.layoutNotFound id))
  | repeated {id : String} {earlier : Nat}
      (names : store.layoutId? document count = some id) (before : earlier < count)
      (named : store.layoutId? document earlier = some id) :
      EndsAfter store document count (.error (.recursiveLayout id))

variable {store : Store ρ} {document : Document ρ}

theorem LeadsThrough.zero : store.LeadsThrough document 0 := by
  intro position bound
  exact absurd bound (Nat.not_lt_zero position)

theorem LeadsThrough.succ {count : Nat} (through : store.LeadsThrough document count)
    {id : String} (names : store.layoutId? document count = some id)
    (stored : store.contains id = true)
    (fresh : ∀ earlier < count, store.layoutId? document earlier ≠ some id) :
    store.LeadsThrough document (count + 1) := by
  intro position bound
  rcases Nat.lt_succ_iff_lt_or_eq.mp bound with before | rfl
  · exact through position before
  · exact ⟨id, names, stored, fresh⟩

theorem EndsAfter.stuck {count : Nat} {result : Except RenderError Unit}
    (ends : store.EndsAfter document count result) :
    ¬ store.LeadsThrough document (count + 1) := by
  intro further
  obtain ⟨id, found, stored, fresh⟩ := further count (Nat.lt_succ_self count)
  cases ends with
  | last none => cases none.symm.trans found
  | missing names unstored =>
      obtain rfl := Option.some.inj (names.symm.trans found)
      rw [unstored] at stored
      cases stored
  | repeated names before named =>
      obtain rfl := Option.some.inj (names.symm.trans found)
      exact fresh _ before named

theorem EndsAfter.count_unique {count other : Nat} {result last : Except RenderError Unit}
    (through : store.LeadsThrough document count)
    (ends : store.EndsAfter document count result)
    (throughOther : store.LeadsThrough document other)
    (endsOther : store.EndsAfter document other last) : count = other := by
  have shorter {fewer more : Nat} (further : store.LeadsThrough document more)
      (below : fewer < more) : store.LeadsThrough document (fewer + 1) :=
    fun position bound => further position (by omega)
  rcases Nat.lt_trichotomy count other with less | equal | more
  · exact absurd (shorter throughOther less) ends.stuck
  · exact equal
  · exact absurd (shorter through more) endsOther.stuck

theorem EndsAfter.unique {count other : Nat} {result last : Except RenderError Unit}
    (through : store.LeadsThrough document count)
    (ends : store.EndsAfter document count result)
    (throughOther : store.LeadsThrough document other)
    (endsOther : store.EndsAfter document other last) : result = last := by
  obtain rfl := ends.count_unique through throughOther endsOther
  -- What was there before is stored, so it is not missing now.
  have stored {id : String} {earlier : Nat} (before : earlier < count)
      (named : store.layoutId? document earlier = some id) :
      store.contains id = true := by
    obtain ⟨other, names, contained, -⟩ := through earlier before
    rwa [Option.some.inj (named.symm.trans names)]
  cases ends <;> cases endsOther <;> grind

end Store

namespace Composition

/-- The layouts merged so far are the first of those that are named in turn, and
the next of them comes next. -/
structure InTurn (store : Store ρ) (requested : Document ρ)
    (composition : Composition ρ) : Prop where
  templates : composition.top.document.DefersOnly Renderer.IsTemplate
  concrete : composition.top.document.NamesConcretely
  through : store.LeadsThrough requested composition.used.length
  used : ∀ id, id ∈ composition.used ↔ ∃ position < composition.used.length,
    store.layoutId? requested position = some id
  next : composition.current.layout? =
    store.layoutId? requested composition.used.length

variable [Extension ρ] {store : Store ρ}

theorem evaluation_of_isTemplate (store : Store ρ) (composition : Composition ρ)
    (key : String) {renderer : Renderer ρ} (template : renderer.IsTemplate) :
    ∃ text, composition.evaluation store key renderer =
      ((.ok (.string text), composition.current), composition.chain) := by
  cases renderer with
  | template template => exact ⟨_, rfl⟩
  | reference mode target => exact template.elim
  | supplied renderer => exact template.elim

theorem Step.inTurn (templates : store.DefersOnly Renderer.IsTemplate)
    (concrete : ∀ id document, store.get? id = some document → document.NamesConcretely)
    {requested : Document ρ} {composition next : Composition ρ}
    (step : Step store composition next) (inTurn : InTurn store requested composition) :
    InTurn store requested next := by
  cases step with
  | skip =>
      exact ⟨inTurn.templates, inTurn.concrete, inTurn.through, inTurn.used, inTurn.next⟩
  | @evaluate key rest deferred value changed after pending defers evaluated =>
      obtain ⟨text, given⟩ := composition.evaluation_of_isTemplate store key
        (inTurn.templates key deferred defers)
      cases evaluated.symm.trans given
      have notLayout : key ≠ Document.layoutKey := by
        rintro rfl
        exact inTurn.concrete deferred defers
      exact ⟨inTurn.templates, inTurn.concrete, inTurn.through, inTurn.used,
        (Document.layout?_insert _ notLayout _).trans inTurn.next⟩
  | @merge id layout visited names unused found =>
      have named := inTurn.next.symm.trans names
      have stored : store.contains id = true := by
        rw [← store.get?_isSome, found]
        rfl
      have fresh : ∀ earlier < composition.used.length,
          store.layoutId? requested earlier ≠ some id := by
        intro earlier before same
        exact unused ((inTurn.used id).mpr ⟨earlier, before, same⟩)
      refine ⟨templates id layout found, concrete id layout found,
        inTurn.through.succ named stored fresh, ?_, ?_⟩
      · intro other
        simp only [mergeInto, List.mem_cons, List.length_cons, inTurn.used,
          Nat.exists_lt_succ_right, named, Option.some_inj]
        rw [or_comm, eq_comm]
      · have own : (Render.merge composition.current layout).layout? = layout.layout? := by
          apply Document.layout?_overlay_of_get?
          rw [Document.get?_erase, if_pos rfl]
        exact own.trans (by simp [mergeInto, Store.layoutId?, named, found])

end Composition

namespace Call

variable [Extension ρ] {store : Store ρ}

theorem Reaches.inTurn (templates : store.DefersOnly Renderer.IsTemplate)
    (concrete : ∀ id document, store.get? id = some document → document.NamesConcretely)
    {call : Call ρ} {start : Document ρ}
    (found : store.start? call.request = some start)
    (startTemplates : start.DefersOnly Renderer.IsTemplate)
    (startConcrete : start.NamesConcretely)
    {composition : Composition ρ} (reached : call.Reaches store composition) :
    composition.InTurn store (start.overlay (call.extra.getD .empty)) := by
  refine reached.invariant ?first ?preserved
  case first =>
    intro other chain located _
    obtain rfl := Option.some.inj (found.symm.trans located)
    exact ⟨startTemplates, startConcrete, nofun, fun _ => ⟨nofun, nofun⟩, rfl⟩
  case preserved =>
    intro composition next _ step inTurn
    exact step.inTurn templates concrete inTurn

theorem endsAfter (templates : store.DefersOnly Renderer.IsTemplate)
    (concrete : ∀ id document, store.get? id = some document → document.NamesConcretely)
    {request : Request ρ} {start : Document ρ} (found : store.start? request = some start)
    (startTemplates : start.DefersOnly Renderer.IsTemplate)
    (startConcrete : start.NamesConcretely) (extra : Option (Document ρ)) :
    ∃ count, store.LeadsThrough (start.overlay (extra.getD .empty)) count ∧
      store.EndsAfter (start.overlay (extra.getD .empty)) count
        ((store.renderAlone request extra).map fun _ => ()) := by
  have rule := Call.returns store ⟨request, extra, []⟩
  change ∃ count, _ ∧
    store.EndsAfter _ count ((Call.outcome store ⟨request, extra, []⟩).map fun _ => ())
  generalize Call.outcome store ⟨request, extra, []⟩ = outcome at rule ⊢
  cases rule with
  | missing absent => cases found.symm.trans absent
  | visited _ _ visited => cases visited
  | @composed final outcome reached stops =>
      have inTurn := reached.inTurn templates concrete found startTemplates startConcrete
      refine ⟨final.used.length, inTurn.through, ?_⟩
      cases stops with
      | finished _ ends => exact .last (inTurn.next.symm.trans ends)
      | @evaluationFailed key _ deferred _ _ _ _ defers evaluated =>
          obtain ⟨text, given⟩ := final.evaluation_of_isTemplate store key
            (inTurn.templates key deferred defers)
          cases evaluated.symm.trans given
      | @layoutUsed id _ names used =>
          obtain ⟨earlier, before, named⟩ := (inTurn.used id).mp used
          exact .repeated (inTurn.next.symm.trans names) before named
      | @layoutMissing id _ names _ missing =>
          have unstored : store.contains id = false := by
            rw [← store.get?_isSome, missing]
            rfl
          exact .missing (inTurn.next.symm.trans names) unstored

end Call

/-- Where only templates are evaluated and layouts are named by values, the
identifiers in turn alone decide whether a document is rendered, and which of them is
to blame if it is not. -/
theorem Store.renderAlone_layouts_iff [Extension ρ] {store : Store ρ}
    (templates : store.DefersOnly Renderer.IsTemplate)
    (concrete : ∀ id document, store.get? id = some document → document.NamesConcretely)
    {request : Request ρ} {start : Document ρ} (found : store.start? request = some start)
    (startTemplates : start.DefersOnly Renderer.IsTemplate)
    (startConcrete : start.NamesConcretely) (extra : Option (Document ρ)) :
    let requested := start.overlay (extra.getD .empty)
    ((∃ rendered, store.renderAlone request extra = .ok (some rendered)) ↔
      ∃ count, store.LeadsThrough requested count ∧
        store.layoutId? requested count = none) ∧
    (∀ id, store.renderAlone request extra = .error (.layoutNotFound id) ↔
      ∃ count, store.LeadsThrough requested count ∧
        store.layoutId? requested count = some id ∧ store.contains id = false) ∧
    (∀ id, store.renderAlone request extra = .error (.recursiveLayout id) ↔
      ∃ count, store.LeadsThrough requested count ∧
        store.layoutId? requested count = some id ∧
        ∃ earlier < count, store.layoutId? requested earlier = some id) ∧
    ∀ id, store.renderAlone request extra ≠ .error (.recursiveReference id) := by
  intro requested
  obtain ⟨count, through, ends⟩ :=
    Call.endsAfter templates concrete found startTemplates startConcrete extra
  have only {other : Nat} {result : Except RenderError Unit}
      (throughOther : store.LeadsThrough requested other)
      (endsOther : store.EndsAfter requested other result) :
      (store.renderAlone request extra).map (fun _ => ()) = result :=
    ends.unique through throughOther endsOther
  have present : store.renderAlone request extra ≠ .ok none := by
    intro returned
    have nothing : Call.outcome store ⟨request, extra, []⟩ = .ok none := returned
    cases found.symm.trans (Call.start?_eq_none_of_ok nothing)
  generalize store.renderAlone request extra = outcome at ends only present ⊢
  refine ⟨⟨?_, ?_⟩, fun id => ⟨?_, ?_⟩, fun id => ⟨?_, ?_⟩, ?_⟩
  · rintro ⟨rendered, rfl⟩
    cases ends with
    | last ends => exact ⟨count, through, ends⟩
  · rintro ⟨other, throughOther, none⟩
    have result := only throughOther (.last none)
    rcases outcome with error | _ | rendered
    · cases result
    · exact absurd rfl present
    · exact ⟨rendered, rfl⟩
  · rintro rfl
    cases ends with
    | missing names unstored => exact ⟨count, through, names, unstored⟩
  · rintro ⟨other, throughOther, names, unstored⟩
    have result := only throughOther (.missing names unstored)
    rcases outcome with error | rendered
    · cases result
      rfl
    · cases result
  · rintro rfl
    cases ends with
    | repeated names before named => exact ⟨count, through, names, _, before, named⟩
  · rintro ⟨other, throughOther, names, earlier, before, named⟩
    have result := only throughOther (.repeated names before named)
    rcases outcome with error | rendered
    · cases result
      rfl
    · cases result
  · rintro id rfl
    cases ends

def corridorPage : Document Empty :=
  .ofEntries [("id", .string "page"), ("layout", .string "hall"),
    ("content", .deferred { renderer := .template (.compile "<$title$>") })]

/-- The hall and the stairs lead to each other, and nothing is stored as `cellar`. -/
def corridor : Store Empty :=
  ([ corridorPage,
      .ofEntries [("id", .string "hall"), ("layout", .string "stairs"),
        ("title", .string "Hall")],
      .ofEntries [("id", .string "stairs"), ("layout", .string "hall"),
        ("content", .deferred { renderer := .template (.compile "[$content$]") })] ]
    : List (Document Empty)).foldl (fun store document => (store.add document).1) .empty

def towardsCellar : Document Empty :=
  .ofEntries [("title", .string "Cellar"), ("layout", .string "cellar")]

theorem corridor_layouts :
    corridor.DefersOnly Renderer.IsTemplate ∧
      (∀ id document, corridor.get? id = some document → document.NamesConcretely) ∧
      corridor.start? (.stored "page") = some corridorPage ∧
      corridorPage.DefersOnly Renderer.IsTemplate ∧ corridorPage.NamesConcretely ∧
      corridor.renderAlone (.stored "page") none = .error (.recursiveLayout "hall") ∧
      corridor.renderAlone (.stored "page") (some towardsCellar) =
        .error (.layoutNotFound "cellar") := by
  have templates : corridor.DefersOnly Renderer.IsTemplate :=
    Store.defersOnly_of_documents (by decide +kernel)
  have each : ∀ document ∈ corridor.documents, document.NamesConcretely := by
    decide +kernel
  have concrete : ∀ id document, corridor.get? id = some document →
      document.NamesConcretely :=
    fun id document found => each document (Store.mem_documents_of_get? found)
  have found : corridor.start? (.stored "page") = some corridorPage := by decide +kernel
  have startTemplates := templates "page" _ found
  have startConcrete := concrete "page" _ found
  obtain ⟨-, -, recursive, -⟩ := Store.renderAlone_layouts_iff templates concrete found
    startTemplates startConcrete none
  obtain ⟨-, missing, -⟩ := Store.renderAlone_layouts_iff templates concrete found
    startTemplates startConcrete (some towardsCellar)
  have hall : corridor.layoutId? (corridorPage.overlay .empty) 0 = some "hall" := by
    decide +kernel
  have stairs : corridor.layoutId? (corridorPage.overlay .empty) 1 = some "stairs" := by
    decide +kernel
  have again : corridor.layoutId? (corridorPage.overlay .empty) 2 = some "hall" := by
    decide +kernel
  have throughHall : corridor.LeadsThrough (corridorPage.overlay .empty) 1 :=
    .succ .zero hall (by decide +kernel) fun _ before => absurd before (Nat.not_lt_zero _)
  have throughStairs : corridor.LeadsThrough (corridorPage.overlay .empty) 2 := by
    refine throughHall.succ stairs (by decide +kernel) ?_
    intro earlier before same
    obtain rfl := Nat.lt_one_iff.mp before
    exact absurd (hall.symm.trans same) (by decide)
  refine ⟨templates, concrete, found, startTemplates, startConcrete, ?_, ?_⟩
  · exact (recursive "hall").mpr ⟨2, throughStairs, again, 0, Nat.two_pos, hall⟩
  · exact (missing "cellar").mpr ⟨0, .zero, by decide +kernel, by decide +kernel⟩

end Compositor
