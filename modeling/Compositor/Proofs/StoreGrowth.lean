import Mathlib.Data.List.Induction
import Mathlib.Data.Option.Basic
import Mathlib.Logic.Relation
import Compositor.Proofs.DecidableValues
import Compositor.Proofs.StoreHistory
import Compositor.Proofs.StoreLookup
import Compositor.Proofs.Termination

namespace Compositor

variable {ρ : Type}

/-- What a script looks up and renders is among these, and it ends with any error of
what it renders. -/
def Script.AsksWithin (targets : String → Prop) : Script ρ → Prop
  | .give _ | .fail _ => True
  | .put _ next => next.AsksWithin targets
  | .look id next => targets id ∧ ∀ found, (next found).AsksWithin targets
  | .render id _ next =>
      targets id ∧ (∀ error, next (.error error) = .fail error) ∧
        ∀ result, (next (.ok result)).AsksWithin targets

theorem Script.AsksWithin.mono {targets wider : String → Prop}
    (implies : ∀ target, targets target → wider target) {script : Script ρ}
    (asks : script.AsksWithin targets) : script.AsksWithin wider := by
  induction script with
  | give value => trivial
  | fail error => trivial
  | put changed next induction => exact induction asks
  | look id next induction =>
      exact ⟨implies id asks.1, fun found => induction found (asks.2 found)⟩
  | render id extra next induction =>
      exact ⟨implies id asks.1, asks.2.1, fun result => induction _ (asks.2.2 result)⟩

/-- What a renderer refers to, if it refers to a document, is one of these. -/
def Renderer.RefersWithin [Extension ρ] (targets : String → Prop) : Renderer ρ → Prop
  | .reference _ target => targets target
  | .template _ => True
  | .supplied renderer => ∀ chain context key,
      (Extension.render renderer chain context key).AsksWithin targets

theorem Renderer.RefersWithin.mono [Extension ρ] {targets wider : String → Prop}
    (implies : ∀ target, targets target → wider target) {renderer : Renderer ρ}
    (refers : renderer.RefersWithin targets) : renderer.RefersWithin wider := by
  cases renderer with
  | reference mode target => exact implies target refers
  | template template => trivial
  | supplied renderer =>
      exact fun chain context key => (refers chain context key).mono implies

theorem Document.DefersOnly.mono {kind wider : Renderer ρ → Prop}
    (implies : ∀ renderer, kind renderer → wider renderer) {document : Document ρ}
    (only : document.DefersOnly kind) : document.DefersOnly wider :=
  fun key deferred defers => implies _ (only key deferred defers)

instance (targets : String → Prop) [DecidablePred targets] :
    DecidablePred (Renderer.RefersWithin targets : Renderer Empty → Prop)
  | .reference _ target => inferInstanceAs (Decidable (targets target))
  | .template _ => .isTrue trivial
  | .supplied renderer => renderer.elim

namespace Store

/-- What the identifiers of a store lead to, they lead to in the larger one. -/
def Extends (larger store : Store ρ) : Prop :=
  ∀ id document, store.get? id = some document → larger.get? id = some document

/-- An identifier that leads to a document in the larger store only. -/
def Gained (store larger : Store ρ) (id : String) : Prop :=
  store.get? id = none ∧ larger.get? id ≠ none

theorem Extends.start? {store larger : Store ρ} (grown : larger.Extends store)
    {request : Request ρ} {start : Document ρ}
    (found : store.start? request = some start) :
    larger.start? request = some start := by
  cases request with
  | stored id => exact grown id start found
  | direct document => exact found

theorem Extends.get?_eq {store larger : Store ρ} (grown : larger.Extends store)
    {id : String} (known : ¬ store.Gained larger id) : larger.get? id = store.get? id := by
  cases found : store.get? id with
  | some document => exact grown id document found
  | none =>
      by_contra present
      exact known ⟨found, present⟩

theorem get?_append (store : Store ρ) (document : Document ρ) (id : String) :
    (store.append document).get? id = store.get? id := by
  change (store.index.get? id).bind _ = (store.index.get? id).bind _
  cases placed : store.index.get? id with
  | none => rfl
  | some position =>
      obtain ⟨found, located, -⟩ := store.index_sound id position placed
      exact List.getElem?_append_left (List.getElem?_eq_some_iff.mp located).1

theorem get?_appendUnder (store : Store ρ) {document : Document ρ} {id : String}
    (identified : document.id? = some id) (other : String) :
    (store.appendUnder document id identified).get? other =
      if id = other then some document else store.get? other := by
  have kept := store.get?_append document other
  change ((store.index.insert id store.documents.length).get? other).bind _ = _
  rw [Entries.get?_insert]
  split
  · simp [appendUnder]
  · exact kept

theorem get?_add_of_not_indexed {store : Store ρ} {document : Document ρ}
    (unindexed : ∀ id, (store.add document).2 ≠ .indexed id) (id : String) :
    (store.add document).1.get? id = store.get? id := by
  have added := store.adds document
  generalize store.add document = result at added unindexed ⊢
  cases added with
  | skipped => rfl
  | anonymous => exact store.get?_append _ id
  | shadowed => exact store.get?_append _ id
  | @indexed id => exact absurd rfl (unindexed id)

theorem add_extends {store : Store ρ} {document : Document ρ} {id : String}
    (indexed : (store.add document).2 = .indexed id) :
    (store.add document).1.Extends store ∧
      ∀ other, store.Gained (store.add document).1 other → other = id := by
  have added := store.adds document
  generalize store.add document = result at added indexed ⊢
  cases added with
  | skipped => cases indexed
  | anonymous => cases indexed
  | shadowed => cases indexed
  | indexed filled identified free =>
      cases indexed
      have missing := get?_of_not_contains free
      refine ⟨?_, ?_⟩
      · intro other found located
        rw [get?_appendUnder, if_neg]
        · exact located
        · rintro rfl
          rw [missing] at located
          cases located
      · rintro other ⟨absent, present⟩
        rw [get?_appendUnder] at present
        by_contra different
        rw [if_neg (Ne.symm different)] at present
        exact present absent

theorem eq_of_id?_eq {documents : List (Document ρ)}
    (distinct : (documents.filterMap Document.id?).Nodup) {document other : Document ρ}
    (member : document ∈ documents) (memberOther : other ∈ documents) {id : String}
    (named : document.id? = some id) (namedOther : other.id? = some id) :
    document = other := by
  induction documents with
  | nil => cases member
  | cons first rest induction =>
      have fresh {later : Document ρ} (laterMember : later ∈ rest)
          (namedLater : later.id? = some id) : first.id? ≠ some id := by
        intro namedFirst
        rw [List.filterMap_cons_some namedFirst, List.nodup_cons] at distinct
        exact distinct.1 (List.mem_filterMap.mpr ⟨later, laterMember, namedLater⟩)
      have distinctRest : (rest.filterMap Document.id?).Nodup :=
        distinct.sublist ((List.sublist_cons_self first rest).filterMap _)
      rcases List.mem_cons.mp member with rfl | later <;>
        rcases List.mem_cons.mp memberOther with rfl | laterOther
      · rfl
      · exact absurd named (fresh laterOther namedOther)
      · exact absurd namedOther (fresh later named)
      · exact induction distinctRest later laterOther

theorem Coherent.get?_eq_some_iff {store : Store ρ} (coherent : store.Coherent)
    (distinct : (store.documents.filterMap Document.id?).Nodup) {id : String}
    {document : Document ρ} :
    store.get? id = some document ↔
      document ∈ store.documents ∧ document.id? = some id := by
  constructor
  · intro found
    exact ⟨mem_documents_of_get? found, id?_of_get? found⟩
  · rintro ⟨member, named⟩
    obtain ⟨found, located⟩ := exists_of_contains
      ((coherent.contains_iff id).mpr ⟨document, member, named⟩)
    rw [eq_of_id?_eq distinct member (mem_documents_of_get? located) named
      (id?_of_get? located)]
    exact located

theorem documents_after_adds (given : List (Document ρ)) :
    (after (given.map .add)).documents =
      (given.filter fun document => !document.isEmpty).map withDefaultId := by
  have offered_adds : offered (given.map .add) = given := by
    induction given using List.reverseRecOn with
    | nil => rfl
    | append_singleton given document induction =>
        rw [offered, List.map_append, List.foldl_append]
        exact congrArg (· ++ [document]) induction
  rw [documents_after, offered_adds]

theorem distinct_after_adds {given : List (Document ρ)}
    (distinct : (given.filterMap fun document => (withDefaultId document).id?).Nodup) :
    ((after (given.map .add)).documents.filterMap Document.id?).Nodup := by
  rw [documents_after_adds, List.filterMap_map]
  exact distinct.sublist (List.filter_sublist.filterMap _)

theorem get?_after_perm {first second : List (Document ρ)}
    (permuted : first.Perm second)
    (distinct : (first.filterMap fun document => (withDefaultId document).id?).Nodup)
    (id : String) :
    (after (second.map .add)).get? id = (after (first.map .add)).get? id := by
  have distinctSecond := (permuted.filterMap _).nodup_iff.mp distinct
  have documents : (after (first.map .add)).documents.Perm
      (after (second.map .add)).documents := by
    rw [documents_after_adds, documents_after_adds]
    exact (permuted.filter _).map _
  ext document
  rw [(after_coherent _).get?_eq_some_iff (distinct_after_adds distinctSecond),
    (after_coherent _).get?_eq_some_iff (distinct_after_adds distinct),
    documents.mem_iff]

end Store

variable [Extension ρ] {store larger : Store ρ}

theorem Composition.evaluation_congr {composition : Composition ρ} {key : String}
    {mode : Mode} {target : String}
    (agree : (composition.nestedCall key mode target).outcome larger =
      (composition.nestedCall key mode target).outcome store) :
    composition.evaluation larger key (.reference mode target) =
      composition.evaluation store key (.reference mode target) := by
  apply Prod.ext
  · rw [Call.evaluation_reference, Call.evaluation_reference, agree]
  · have kept (among : Store ρ) :=
      Render.evaluate_keepsChain among.nested_keepsChain among key (.reference mode target)
        composition.current composition.chain
    exact (kept larger).trans (kept store).symm

theorem Composition.evaluation_of_error {composition : Composition ρ} {key : String}
    {mode : Mode} {target : String} {error : RenderError}
    (outcome : (composition.nestedCall key mode target).outcome store = .error error) :
    (composition.evaluation store key (.reference mode target)).1.1 = .error error := by
  rw [Call.evaluation_reference, outcome]

/-- What is deferred under the next key is evaluated alike in both stores, or the
evaluation misses a layout that only the larger one has. -/
def Composition.Agrees (store larger : Store ρ) (composition : Composition ρ) : Prop :=
  ∀ key rest deferred, composition.pending = key :: rest →
    composition.top.document.Defers key deferred →
    composition.evaluation larger key deferred.renderer =
        composition.evaluation store key deferred.renderer ∨
      ∃ id, store.Gained larger id ∧
        (composition.evaluation store key deferred.renderer).1.1 =
          .error (.layoutNotFound id)

namespace Composition

theorem Step.inLarger (grown : larger.Extends store) {composition next : Composition ρ}
    (step : Step store composition next) (agrees : composition.Agrees store larger) :
    Step larger composition next := by
  cases step with
  | skip pending concrete => exact .skip pending concrete
  | evaluate pending defers evaluated =>
      apply Step.evaluate pending defers
      rcases agrees _ _ _ pending defers with same | ⟨id, -, failed⟩
      · exact same.trans evaluated
      · rw [evaluated] at failed
        cases failed
  | merge visited names unused found =>
      exact .merge visited names unused (grown _ _ found)

theorem Stops.inLarger {composition : Composition ρ}
    {outcome : Except RenderError (Document ρ)}
    (stops : Stops store composition outcome)
    (agrees : composition.Agrees store larger) :
    Stops larger composition outcome ∨
      ∃ id, store.Gained larger id ∧ outcome = .error (.layoutNotFound id) := by
  cases stops with
  | finished visited ends => exact .inl (.finished visited ends)
  | layoutUsed visited names used => exact .inl (.layoutUsed visited names used)
  | evaluationFailed pending defers evaluated =>
      rcases agrees _ _ _ pending defers with same | ⟨id, gained, failed⟩
      · exact .inl (.evaluationFailed pending defers (same.trans evaluated))
      · rw [evaluated] at failed
        cases failed
        exact .inr ⟨id, gained, rfl⟩
  | @layoutMissing id visited names unused missing =>
      cases found : larger.get? id with
      | none => exact .inl (.layoutMissing visited names unused found)
      | some layout => exact .inr ⟨id, ⟨missing, by simp [found]⟩, rfl⟩

end Composition

namespace Call

/-- A call comes out alike in both stores, or it misses a document that only the
larger one has. -/
inductive Grows (store larger : Store ρ) (call : Call ρ) : Prop
  | same (outcome : call.outcome larger = call.outcome store)
  | missing {id : String} (gained : store.Gained larger id)
      (asked : call.request = .stored id) (outcome : call.outcome store = .ok none)
  | layoutMissing {id : String} (gained : store.Gained larger id)
      (outcome : call.outcome store = .error (.layoutNotFound id))

theorem Reaches.inLarger (grown : larger.Extends store) {call : Call ρ}
    (agrees : ∀ composition, call.Reaches store composition →
      composition.Agrees store larger)
    {composition : Composition ρ} (reached : call.Reaches store composition) :
    call.Reaches larger composition := by
  refine reached.invariant ?first ?preserved
  case first =>
    intro start chain found enters
    exact ⟨start, chain, grown.start? found, enters, .refl⟩
  case preserved =>
    intro composition next reached step inLarger
    obtain ⟨start, chain, found, enters, steps⟩ := inLarger
    exact ⟨start, chain, found, enters,
      steps.tail (step.inLarger grown (agrees composition reached))⟩

theorem Reaches.top_defersOnly {kind : Renderer ρ → Prop}
    (stored : store.DefersOnly kind) {call : Call ρ}
    (started : ∀ start, store.start? call.request = some start → start.DefersOnly kind)
    {composition : Composition ρ} (reached : call.Reaches store composition) :
    composition.top.document.DefersOnly kind := by
  refine reached.invariant ?first ?preserved
  case first =>
    intro start chain found _
    exact started start found
  case preserved =>
    intro composition next _ step only
    cases step with
    | skip => exact only
    | evaluate => exact only
    | merge _ _ _ found => exact stored _ _ found

theorem runScript_grows (grown : larger.Extends store) {chain : List String}
    (nested : ∀ target extra, Grows store larger ⟨.stored target, extra, chain⟩)
    {script : Script ρ}
    (asks : script.AsksWithin fun target => ¬ store.Gained larger target)
    (context : Document ρ) :
    Render.runIn (Render.runScript larger.nested larger script) context chain =
        Render.runIn (Render.runScript store.nested store script) context chain ∨
      ∃ id, store.Gained larger id ∧
        (Render.runIn (Render.runScript store.nested store script) context chain).1.1 =
          .error (.layoutNotFound id) := by
  induction script generalizing context with
  | give value => exact .inl rfl
  | fail error => exact .inl rfl
  | put changed next induction => exact induction asks changed
  | look id next induction =>
      rw [Render.runIn_runScript_look, Render.runIn_runScript_look, grown.get?_eq asks.1]
      exact induction (store.get? id) (asks.2 (store.get? id)) context
  | render id extra next induction =>
      obtain ⟨known, ends, onward⟩ := asks
      have run (among : Store ρ) :
          Render.runIn (Render.runScript among.nested among (.render id extra next))
              context chain =
            Render.runIn (Render.runScript among.nested among
              (next (outcome among ⟨.stored id, extra, chain⟩))) context chain := by
        rw [Render.runIn_runScript_render, among.nested_keepsChain id extra chain]
        rfl
      rw [run larger, run store]
      cases nested id extra with
      | same outcome =>
          rw [outcome]
          cases Call.outcome store ⟨.stored id, extra, chain⟩ with
          | error error =>
              rw [ends]
              exact .inl rfl
          | ok result => exact induction (.ok result) (onward result) context
      | missing gained asked =>
          cases asked
          exact absurd gained known
      | layoutMissing gained outcome =>
          rw [outcome, ends]
          exact .inr ⟨_, gained, rfl⟩

theorem Reaches.agrees (grown : larger.Extends store)
    (stored : store.DefersOnly
      (Renderer.RefersWithin fun target => ¬ store.Gained larger target))
    {call : Call ρ}
    (started : ∀ start, store.start? call.request = some start → start.DefersOnly
      (Renderer.RefersWithin fun target => ¬ store.Gained larger target))
    (nested : ∀ inner, call.Asks store inner → inner.Grows store larger)
    {composition : Composition ρ} (reached : call.Reaches store composition) :
    composition.Agrees store larger := by
  rintro key rest ⟨renderer, label⟩ pending defers
  have refers := reached.top_defersOnly stored started key _ defers
  cases renderer with
  | template template => exact .inl rfl
  | supplied renderer =>
      exact runScript_grows grown
        (fun target extra => nested _ (.supplied reached pending defers target extra))
        (refers _ _ key) composition.current
  | reference mode target =>
      cases nested _ (.reference reached pending defers) with
      | same outcome => exact .inl (Composition.evaluation_congr outcome)
      | missing gained asked =>
          cases asked
          exact absurd gained refers
      | layoutMissing gained outcome =>
          exact .inr ⟨_, gained, Composition.evaluation_of_error outcome⟩

theorem grows_of_missing {call : Call ρ}
    (absent : store.start? call.request = none) : call.Grows store larger := by
  have nothing := outcome_of_missing absent
  obtain ⟨request, extra, chain⟩ := call
  cases request with
  | direct document => cases absent
  | stored id =>
      cases found : larger.get? id with
      | none =>
          have nothingLarger : Call.outcome larger ⟨.stored id, extra, chain⟩ = .ok none :=
            outcome_of_missing found
          exact .same (nothingLarger.trans nothing.symm)
      | some document =>
          have gained : store.Gained larger id := ⟨absent, by simp [found]⟩
          exact .missing gained rfl nothing

theorem grows (grown : larger.Extends store)
    (stored : store.DefersOnly
      (Renderer.RefersWithin fun target => ¬ store.Gained larger target))
    (call : Call ρ)
    (started : ∀ start, store.start? call.request = some start → start.DefersOnly
      (Renderer.RefersWithin fun target => ¬ store.Gained larger target)) :
    call.Grows store larger := by
  -- What is asked for in the smaller store is asked for in the larger one as well.
  induction call using (asks_wellFounded store).induction with
  | _ call induction =>
      have nested (inner : Call ρ) (asks : call.Asks store inner) :
          inner.Grows store larger := by
        refine induction inner asks ?_
        cases asks with
        | reference => exact stored _
        | supplied => exact stored _
      have agrees (composition : Composition ρ)
          (reached : call.Reaches store composition) :
          composition.Agrees store larger :=
        reached.agrees grown stored started nested
      have rule := call.returns store
      generalize equal : call.outcome store = outcome at rule
      cases rule with
      | missing absent => exact grows_of_missing absent
      | visited found identified visited =>
          have refused := outcome_of_visited (grown.start? found) identified visited
          exact .same (refused.trans equal.symm)
      | @composed final outcome reached stops =>
          rcases stops.inLarger (agrees final reached) with
            stopsLarger | ⟨id, gained, rfl⟩
          · have returns := Returns.composed (reached.inLarger grown agrees) stopsLarger
            exact .same (returns.outcome_eq.trans equal.symm)
          · exact .layoutMissing gained equal

end Call

/-- A store is seen only through what its identifiers lead to. So a document that
is not reached by an identifier changes nothing, documents with different
identifiers may arrive in any order, and a document under a new identifier changes
only what came to nothing for the lack of it. -/
theorem Store.outcome_after_add :
    (∀ (store other : Store ρ) (call : Call ρ),
      (∀ id, other.get? id = store.get? id) →
      call.outcome other = call.outcome store) ∧
    (∀ (store : Store ρ) (document : Document ρ) (call : Call ρ),
      (store.add document).2 = .skipped ∨ (store.add document).2 = .anonymous ∨
        (∃ id, (store.add document).2 = .shadowed id) →
      call.outcome (store.add document).1 = call.outcome store) ∧
    (∀ (first second : List (Document ρ)) (call : Call ρ), first.Perm second →
      (first.filterMap fun document => (withDefaultId document).id?).Nodup →
      call.outcome (after (second.map .add)) = call.outcome (after (first.map .add))) ∧
    ∀ (store : Store ρ) (document : Document ρ) (id : String) (call : Call ρ),
      (store.add document).2 = .indexed id →
      store.DefersOnly
        (Renderer.RefersWithin fun target => store.contains target = true) →
      (∀ start, store.start? call.request = some start → start.DefersOnly
        (Renderer.RefersWithin fun target => store.contains target = true)) →
      call.outcome (store.add document).1 = call.outcome store ∨
        call.request = .stored id ∧ call.outcome store = .ok none ∨
        call.outcome store = .error (.layoutNotFound id) := by
  refine ⟨?lookup, ?unreached, ?permuted, ?indexed⟩
  case lookup =>
    intro store other call same
    exact Call.outcome_eq_of_get?_eq same call
  case unreached =>
    intro store document call answered
    apply Call.outcome_eq_of_get?_eq
    apply get?_add_of_not_indexed
    intro id indexed
    rcases answered with answered | answered | ⟨other, answered⟩ <;>
      cases answered.symm.trans indexed
  case permuted =>
    intro first second call permuted distinct
    exact Call.outcome_eq_of_get?_eq (get?_after_perm permuted distinct) call
  case indexed =>
    intro store document id call indexed stored started
    obtain ⟨grown, only⟩ := add_extends indexed
    have known (renderer : Renderer ρ)
        (refers : renderer.RefersWithin fun target => store.contains target = true) :
        renderer.RefersWithin fun target =>
          ¬ store.Gained (store.add document).1 target := by
      refine refers.mono ?_
      rintro target contained ⟨missing, -⟩
      obtain ⟨found, located⟩ := exists_of_contains contained
      rw [missing] at located
      cases located
    cases Call.grows grown (fun other found located => (stored other found located).mono
      known) call fun start found => (started start found).mono known with
    | same outcome => exact .inl outcome
    | missing gained asked outcome =>
        obtain rfl := only _ gained
        exact .inr (.inl ⟨asked, outcome⟩)
    | layoutMissing gained outcome =>
        obtain rfl := only _ gained
        exact .inr (.inr outcome)

def noticePage : Document Empty :=
  .ofEntries [("filename", .string "page"), ("layout", .string "frame"),
    ("content", .deferred { renderer := .reference .embed "note" })]

def noticeNote : Document Empty :=
  .ofEntries [("id", .string "note"), ("content", .string "Closed")]

def laterNote : Document Empty :=
  .ofEntries [("id", .string "note"), ("content", .string "Open")]

def noticeFrame : Document Empty :=
  .ofEntries [("id", .string "frame"),
    ("content", .deferred { renderer := .template (.compile "<$content$>") })]

/-- The page lacks its layout. -/
def noticeBoard : Store Empty :=
  .after ([noticePage, noticeNote].map .add)

def noticeCall : Call Empty := ⟨.stored "page", none, []⟩

theorem noticeBoard_outcomes :
    (noticeBoard.add laterNote).2 = .shadowed "note" ∧
      noticeCall.outcome (noticeBoard.add laterNote).1 = noticeCall.outcome noticeBoard ∧
    [noticePage, noticeNote].Perm [noticeNote, noticePage] ∧
      ([noticePage, noticeNote].filterMap fun document =>
        (Store.withDefaultId document).id?).Nodup ∧
      noticeCall.outcome (.after ([noticeNote, noticePage].map .add)) =
        noticeCall.outcome noticeBoard ∧
    (noticeBoard.add noticeFrame).2 = .indexed "frame" ∧
      noticeBoard.DefersOnly
        (Renderer.RefersWithin fun target => noticeBoard.contains target = true) ∧
      (noticeCall.outcome (noticeBoard.add noticeFrame).1 =
          noticeCall.outcome noticeBoard ∨
        noticeCall.request = .stored "frame" ∧
          noticeCall.outcome noticeBoard = .ok none ∨
        noticeCall.outcome noticeBoard = .error (.layoutNotFound "frame")) ∧
    noticeCall.outcome noticeBoard = .error (.layoutNotFound "frame") ∧
      noticeCall.outcome (noticeBoard.add noticeFrame).1 =
        .ok (some (.ofEntries [("id", .string "page"), ("content", .string "<Closed>"),
          ("filename", .string "page")])) := by
  have shadowed : (noticeBoard.add laterNote).2 = .shadowed "note" := by decide +kernel
  have indexed : (noticeBoard.add noticeFrame).2 = .indexed "frame" := by decide +kernel
  have permuted : [noticePage, noticeNote].Perm [noticeNote, noticePage] := .swap _ _ _
  have distinct : ([noticePage, noticeNote].filterMap fun document =>
      (Store.withDefaultId document).id?).Nodup := by decide +kernel
  have stored : noticeBoard.DefersOnly
      (Renderer.RefersWithin fun target => noticeBoard.contains target = true) :=
    Store.defersOnly_of_documents (by decide +kernel)
  obtain ⟨-, unreached, anyOrder, added⟩ := Store.outcome_after_add (ρ := Empty)
  exact ⟨shadowed, unreached _ _ _ (.inr (.inr ⟨_, shadowed⟩)), permuted, distinct,
    anyOrder _ _ _ permuted distinct, indexed, stored,
    added _ _ _ _ indexed stored (stored "page"), by decide +kernel, by decide +kernel⟩

end Compositor
