import Compositor.Engine
import Compositor.Proofs.SourceValues
import Compositor.Proofs.StoreHistory

namespace Compositor

variable {ρ : Type}

/-- All documents of the store may be rendered into concrete ones. -/
def Store.Storable (store : Store ρ) : Prop :=
  ∀ document ∈ store.documents, document.All Value.Storable

theorem Store.withDefaultId_all {document : Document ρ}
    (all : document.All Value.Storable) :
    (withDefaultId document).All Value.Storable := by
  unfold withDefaultId
  split
  · exact all
  · split
    · exact all
    · exact all.insert _ (.inl (.string _))

theorem Store.Storable.add {store : Store ρ} (storable : store.Storable)
    {document : Document ρ} (all : document.All Value.Storable) :
    (store.add document).1.Storable := by
  intro stored member
  rw [(store.adds document).documents_eq, List.mem_append, List.mem_map] at member
  rcases member with earlier | ⟨added, given, rfl⟩
  · exact storable stored earlier
  · obtain rfl := List.mem_singleton.mp (List.mem_filter.mp given).1
    exact withDefaultId_all all

theorem FileTree.loadFiles_all {registry : Registry ρ}
    (gives : ∀ entry ∈ registry, entry.2.GivesStorable) (tree : FileTree)
    (paths : List String) (types : FileTypes) :
    ∀ outcome ∈ (tree.loadFiles paths types registry).1.files,
      ∀ document, outcome.result = .ok document → document.All Value.Storable := by
  intro outcome member document loaded
  obtain ⟨path, -, typed⟩ := List.mem_filterMap.mp member
  obtain ⟨type, -, rfl⟩ := Option.map_eq_some_iff.mp typed
  exact loadFile_all gives loaded

namespace Engine

theorem Progress.advance_storable {progress : Progress ρ}
    (storable : progress.store.Storable) {outcome : FileOutcome (Document ρ)}
    (all : ∀ document, outcome.result = .ok document → document.All Value.Storable) :
    (progress.advance outcome).store.Storable := by
  unfold advance
  split
  · exact storable
  · rename_i document loaded
    exact storable.add (all document loaded)

theorem Progress.foldl_advance_storable {outcomes : List (FileOutcome (Document ρ))}
    {progress : Progress ρ} (storable : progress.store.Storable)
    (all : ∀ outcome ∈ outcomes, ∀ document, outcome.result = .ok document →
      document.All Value.Storable) :
    (outcomes.foldl advance progress).store.Storable := by
  induction outcomes generalizing progress with
  | nil => exact storable
  | cons outcome rest induction =>
      obtain ⟨first, others⟩ := List.forall_mem_cons.mp all
      exact induction (advance_storable storable first) others

theorem loadTree_storable {engine : Engine ρ}
    (gives : ∀ entry ∈ engine.filters, entry.2.GivesStorable)
    (storable : engine.store.Storable) (tree : FileTree) (root : String) :
    (engine.loadTree tree root).engine.store.Storable := by
  unfold loadTree
  split
  · exact storable
  · rename_i paths found
    exact Progress.foldl_advance_storable storable
      (tree.loadFiles_all gives paths engine.fileTypes)

theorem addText_fst (engine : Engine ρ) (text : String) (extra : Document ρ) :
    (engine.addText text extra).1 =
      { engine with
        store := (engine.store.add
          (engine.filters.parse text Document.contentKey none extra)).1 } := rfl

theorem filters_loadTree (engine : Engine ρ) (tree : FileTree) (root : String) :
    (engine.loadTree tree root).engine.filters = engine.filters := by
  unfold loadTree
  split <;> rfl

/-- The engine was given texts, with concrete properties besides, and trees of
files. -/
inductive Filled (filters : Registry ρ) (fileTypes : FileTypes) : Engine ρ → Prop
  | start : Filled filters fileTypes { filters, fileTypes }
  | text {engine : Engine ρ} (filled : Filled filters fileTypes engine)
      (text : String) {extra : Document ρ} (concrete : extra.toValue.Concrete) :
      Filled filters fileTypes (engine.addText text extra).1
  | tree {engine : Engine ρ} (filled : Filled filters fileTypes engine)
      (tree : FileTree) (root : String) :
      Filled filters fileTypes (engine.loadTree tree root).engine

theorem Filled.filters_eq {filters : Registry ρ} {fileTypes : FileTypes}
    {engine : Engine ρ} (filled : Filled filters fileTypes engine) :
    engine.filters = filters := by
  induction filled with
  | start => rfl
  | text _ text _ induction =>
      rw [addText_fst]
      exact induction
  | tree _ tree root induction => exact (filters_loadTree _ tree root).trans induction

theorem storable_of_concrete {document : Document ρ}
    (concrete : document.toValue.Concrete) : document.All Value.Storable :=
  (Document.concrete_toValue_iff.mp concrete).mono fun _ => .inl

theorem Filled.storable {filters : Registry ρ} {fileTypes : FileTypes}
    (gives : ∀ entry ∈ filters, entry.2.GivesStorable)
    {engine : Engine ρ} (filled : Filled filters fileTypes engine) :
    engine.store.Storable := by
  induction filled with
  | start => exact List.forall_mem_nil _
  | @text engine filled text extra concrete induction =>
      rw [← filled.filters_eq] at gives
      have parsed := Registry.parse_all gives text Document.contentKey none
        (storable_of_concrete concrete)
      rw [addText_fst]
      exact Store.Storable.add induction parsed
  | @tree engine filled tree root induction =>
      rw [← filled.filters_eq] at gives
      exact loadTree_storable gives induction tree root

end Engine

/-- What is asked for is stored, or was read with the filters. -/
inductive Request.ReadWith (filters : Registry ρ) : Request ρ → Prop
  | stored (id : String) : ReadWith filters (.stored id)
  | direct (text defaultPath : String) (contentType : Option String)
      {extra : Document ρ} (concrete : extra.toValue.Concrete) :
      ReadWith filters (.direct (filters.parse text defaultPath contentType extra))

/-- What is storable is rendered into something concrete, whatever concrete entries are
laid over it. -/
theorem Store.Storable.concrete_of_renderAlone [Extension ρ] {store : Store ρ}
    (storable : store.Storable) {request : Request ρ}
    (started : ∀ start, store.start? request = some start → start.All Value.Storable)
    {extra : Option (Document ρ)}
    (concrete : ∀ document, extra = some document → document.toValue.Concrete)
    {rendered : Document ρ} (returned : store.renderAlone request extra = .ok (some rendered)) :
    rendered.toValue.Concrete := by
  have found (id : String) (document : Document ρ)
      (located : store.get? id = some document) : document.All Value.Storable :=
    storable document (Store.mem_documents_of_get? located)
  have laidOver : (extra.getD .empty).All Value.Concrete := by
    cases extra with
    | none => exact Document.all_empty
    | some document => exact Document.concrete_toValue_iff.mp (concrete document rfl)
  have outcome : Call.outcome store ⟨request, extra, []⟩ = .ok (some rendered) := returned
  exact Document.concrete_toValue_iff.mpr
    (Call.all_of_ok Value.final_concrete found started laidOver outcome)

/-- With the filters that come with the library, nothing deferred is ever left in
what is rendered, so it can always be written. -/
theorem Engine.rendered_concrete [Extension ρ] {filters : Registry ρ}
    (builtin : filters ⊆ Registry.builtin) {fileTypes : FileTypes} {engine : Engine ρ}
    (filled : Engine.Filled filters fileTypes engine) {request : Request ρ}
    (read : request.ReadWith engine.filters) {extra : Option (Document ρ)}
    (concrete : ∀ document, extra = some document → document.toValue.Concrete)
    {rendered : Document ρ} (returned : engine.render request extra = .ok (some rendered)) :
    rendered.toValue.Concrete ∧ ∃ text, Json.write rendered.toValue = .ok text := by
  have gives : ∀ entry ∈ filters, entry.2.GivesStorable :=
    fun entry member => Registry.builtin_givesStorable entry (builtin member)
  have storable := filled.storable gives
  have started (start : Document ρ)
      (located : engine.store.start? request = some start) : start.All Value.Storable := by
    cases read with
    | stored id => exact storable start (Store.mem_documents_of_get? located)
    | direct text defaultPath contentType properties =>
        obtain rfl := Option.some.inj located
        rw [← filled.filters_eq] at gives
        exact Registry.parse_all gives text defaultPath contentType
          (Engine.storable_of_concrete properties)
  have settled := storable.concrete_of_renderAlone started concrete returned
  exact ⟨settled, Json.write_ok settled⟩

def pageText : String := "@@ layout frame\n@@ menu:embed:html menu\nText"

def menuText : String := "\x7b\"id\":\"menu\",\"items\":[\"Home\"]\x7d"

def standTree : FileTree where
  nodes := [(["site"], .directory), (["site", "menu.json"], .file menuText.toUTF8),
    (["site", "page.txt"], .file pageText.toUTF8)]
  distinct := by decide

def stocked : Engine Empty :=
  (Engine.addText {} "@@ id frame\n@@ content:template\n<$content$ $date$>").1

/-- A layout from a text, and a page and a menu from files of both formats. -/
def stand : Engine Empty := (stocked.loadTree standTree "site").engine

theorem locate?_standTree :
    standTree.locate? "site" false = some ["site"] ∧
      standTree.locate? "site/page.txt" = some ["site", "page.txt"] ∧
      standTree.locate? "site/menu.json" = some ["site", "menu.json"] := by
  have root : Path.split "site" = ["site"] := by decide +kernel
  have page : Path.split "site/page.txt" = ["site", "page.txt"] := by decide +kernel
  have menu : Path.split "site/menu.json" = ["site", "menu.json"] := by decide +kernel
  refine ⟨?_, ?_, ?_⟩ <;>
    simp [FileTree.locate?, FileTree.start, root, page, menu, FileTree.follow,
      FileTree.node?, FileTree.isAlwaysThere, standTree, List.lookup_cons]

theorem walk?_standTree :
    standTree.walk? "site" = some ["site/menu.json", "site/page.txt"] := by
  have sorted : standTree.filesBelow ["site"] = [["menu.json"], ["page.txt"]] :=
    List.mergeSort_of_pairwise (by decide +kernel)
  rw [FileTree.walk?, locate?_standTree.1]
  change some ((standTree.filesBelow ["site"]).map (Path.below "site")) = _
  rw [sorted]
  decide +kernel

theorem readText?_standTree :
    standTree.readText? "site/page.txt" = some pageText ∧
      standTree.readText? "site/menu.json" = some menuText := by
  obtain ⟨-, page, menu⟩ := locate?_standTree
  rw [FileTree.readText?, FileTree.readText?, page, menu]
  decide +kernel

def standExtra : Document Empty :=
  .ofEntries [("date", .string "May")]

theorem stand_rendered_concrete :
    (Registry.builtin : Registry Empty) ⊆ Registry.builtin ∧
      Engine.Filled Registry.builtin FileTypes.builtin stand ∧
      Request.ReadWith stand.filters (.stored "site/page.txt") ∧
      standExtra.toValue.Concrete ∧
      ∃ rendered,
        stand.render (.stored "site/page.txt") (some standExtra) = .ok (some rendered) ∧
        rendered.toValue.Concrete ∧ ∃ text, Json.write rendered.toValue = .ok text := by
  have filled : Engine.Filled Registry.builtin FileTypes.builtin stand :=
    .tree (.text .start _ (.map (List.forall_mem_nil _))) standTree "site"
  have concrete : standExtra.toValue.Concrete :=
    .map (List.forall_mem_singleton.mpr (.string "May"))
  have renders : ((stand.render (.stored "site/page.txt") (some standExtra)).toOption.bind
      id).isSome = true := by
    -- Sorting the files and decoding their texts cannot be decided with the rest.
    unfold stand Engine.loadTree FileTree.discover
    rw [walk?_standTree]
    simp only [FileTree.loadFiles, FileTree.loadFile, readText?_standTree.1,
      readText?_standTree.2, List.filterMap_cons, List.filterMap_nil]
    decide +kernel
  obtain ⟨rendered, found⟩ := Option.isSome_iff_exists.mp renders
  have returned : stand.render (.stored "site/page.txt") (some standExtra) =
      .ok (some rendered) := by
    obtain ⟨inner, answered, same⟩ := Option.bind_eq_some_iff.mp found
    generalize stand.render (.stored "site/page.txt") (some standExtra) = outcome
      at answered ⊢
    cases outcome with
    | error error => cases answered
    | ok result =>
        cases answered
        exact congrArg Except.ok same
  refine ⟨List.Subset.refl _, filled, .stored _, concrete, rendered, returned,
    Engine.rendered_concrete (List.Subset.refl _) filled (.stored _) ?_ returned⟩
  rintro document ⟨⟩
  exact concrete

end Compositor
