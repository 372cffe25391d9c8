import Mathlib.Data.List.DropRight
import Mathlib.Data.List.Induction
import Compositor.Proofs.OverlayAlgebra
import Compositor.Proofs.Passages
import Compositor.Proofs.StoreHistory
import Compositor.Proofs.TreeLoad

namespace Compositor

variable {ρ : Type}

/-! What a file says of itself lies over its content type and its path. -/

namespace Document

/-- The entries that texts are stored under, in order. The filters of each see the
document as it is by then. -/
def storedEntries (document : Document ρ) :
    List (KeySpec ρ × String) → Entries (Value ρ)
  | [] => []
  | (spec, text) :: rest =>
      (spec.key, spec.apply (.string text) document) ::
        (spec.store document text).storedEntries rest

theorem storeAll_eq_overlay (document : Document ρ)
    (stores : List (KeySpec ρ × String)) :
    document.storeAll stores =
      document.overlay (.ofEntries (document.storedEntries stores)) := by
  apply Document.ext
  rw [entries_overlay_ofEntries]
  induction stores generalizing document with
  | nil => rfl
  | cons store rest induction => exact induction (store.1.store document store.2)

theorem isEmpty_eq_false_of_mem {document : Document ρ} {key : String}
    (member : key ∈ document.keys) : document.isEmpty = false := by
  apply List.isEmpty_eq_false_iff.mpr
  intro empty
  rw [keys, empty] at member
  cases member

end Document

/-- The texts that a source has stored, passage by passage. -/
def Registry.stores (registry : Registry ρ) (text defaultPath : String) :
    List (KeySpec ρ × String) :=
  (Passage.cut (registry.defaultSpec defaultPath)
    ((Text.lines text).map registry.classify)).flatMap Passage.stores

namespace FileTree

section OneFile

variable (path : String) (type : FileType)

/-- What is assumed of a file. -/
def defaults : Document ρ :=
  (Document.empty.insert Document.contentTypeKey (.string type.contentType)).insert
    Document.filenameKey (.string path)

theorem keys_defaults :
    (defaults path type : Document ρ).keys =
      [Document.contentTypeKey, Document.filenameKey] := rfl

theorem get?_defaults (key : String) :
    (defaults path type : Document ρ).get? key =
      if Document.filenameKey = key then some (.string path)
      else if Document.contentTypeKey = key then some (.string type.contentType)
      else none := by
  rw [defaults, Document.get?_insert, Document.get?_insert, Document.get?_empty]

/-- What a file says of itself: the texts that its directives store, or its object. -/
def ownDocument (filters : Registry ρ) (text : String) : Except LoadError (Document ρ) :=
  match type.format with
  | .directives =>
      .ok (.ofEntries
        ((defaults path type).storedEntries (filters.stores text type.key)))
  | .json =>
      match Json.read? text with
      | none => .error (.json path)
      | some (.map entries) => .ok (.ofEntries entries)
      | some _ => .error (.notAnObject path)

theorem documentOfText_eq (filters : Registry ρ) (text : String) :
    documentOfText path type filters text =
      (ownDocument path type filters text).map (defaults path type).overlay := by
  unfold documentOfText ownDocument
  cases type.format with
  | directives =>
      have parsed : filters.parse text type.key (some type.contentType)
            (Document.empty.insert Document.filenameKey (.string path)) =
          (defaults path type).storeAll (filters.stores text type.key) := by
        rw [Registry.parse_eq_read, Registry.read_eq_storeAll]
        rfl
      change Except.ok _ = Except.ok _
      rw [parsed, Document.storeAll_eq_overlay]
  | json =>
      cases Json.read? text with
      | none => rfl
      | some value => cases value <;> rfl

end OneFile

/-- A document from a file: the content type and the path come first, replaced in
place by what the file says of itself, and the rest of that comes after them. -/
structure FromFile (path : String) (type : FileType) (own document : Document ρ) :
    Prop where
  nonempty : document.isEmpty = false
  keys : document.keys = [Document.contentTypeKey, Document.filenameKey] ++
    own.keys.filter fun key => key ∉ [Document.contentTypeKey, Document.filenameKey]
  contentType : document.get? Document.contentTypeKey =
    some ((own.get? Document.contentTypeKey).getD (.string type.contentType))
  filename : document.get? Document.filenameKey =
    some ((own.get? Document.filenameKey).getD (.string path))
  others : ∀ key, key ≠ Document.contentTypeKey → key ≠ Document.filenameKey →
    document.get? key = own.get? key

theorem defaults_overlay_fromFile (path : String) (type : FileType) (own : Document ρ) :
    FromFile path type own ((defaults path type).overlay own) := by
  have first : Document.contentTypeKey ∈ (defaults path type : Document ρ).keys := by
    rw [keys_defaults]
    exact List.mem_cons_self
  refine {
    nonempty := Document.isEmpty_eq_false_of_mem (Document.keys_subset_overlay _ _ first)
    keys := by rw [Document.keys_overlay, keys_defaults]
    contentType := ?_
    filename := ?_
    others := ?_ }
  · rw [Document.get?_overlay, get?_defaults]
    cases own.get? Document.contentTypeKey <;> rfl
  · rw [Document.get?_overlay, get?_defaults]
    cases own.get? Document.filenameKey <;> rfl
  · intro key notType notName
    rw [Document.get?_overlay, get?_defaults, if_neg notName.symm, if_neg notType.symm,
      Option.or_none]

/-- The file gives an identifier without text, or none and a file name that is no
name. -/
def Unnamed (own : Document ρ) : Prop :=
  (∃ id, own.get? Document.idKey = some id ∧ id.text = "") ∨
    (own.get? Document.idKey = none ∧
      ∃ name, own.get? Document.filenameKey = some name ∧
        ∀ text, name = .string text → text = "")

/-- What the document of a file is identified by. -/
inductive Identifies (own : Document ρ) (path : String) : String → Prop
  | id {value : Value ρ} (given : own.get? Document.idKey = some value)
      (filled : value.text ≠ "") : Identifies own path value.text
  | filename {text : String} (lacking : own.get? Document.idKey = none)
      (given : own.get? Document.filenameKey = some (.string text))
      (filled : text ≠ "") : Identifies own path text
  | path (lacking : own.get? Document.idKey = none)
      (unnamed : own.get? Document.filenameKey = none) : Identifies own path path

theorem Identifies.not_unnamed {own : Document ρ} {path id : String}
    (identifies : Identifies own path id) : ¬ Unnamed own := by
  rintro (⟨value, found, blank⟩ | ⟨absent, name, found, blank⟩)
  · cases identifies with
    | id given filled =>
        obtain rfl := Option.some.inj (given.symm.trans found)
        exact filled blank
    | filename lacking given filled => cases lacking.symm.trans found
    | path lacking unnamed => cases lacking.symm.trans found
  · cases identifies with
    | id given filled => cases absent.symm.trans given
    | filename lacking given filled =>
        exact filled (blank _ (Option.some.inj (found.symm.trans given)))
    | path lacking unnamed => cases unnamed.symm.trans found

section Identified

variable {path : String} {type : FileType} {own document : Document ρ}

theorem FromFile.id?_withDefaultId (made : FromFile path type own document) :
    (Store.withDefaultId document).id? =
      match own.get? Document.idKey with
      | some value => value.identifier?
      | none =>
          ((own.get? Document.filenameKey).getD (.string path)).string?.filter
            (· ≠ "") := by
  have kept : document.get? Document.idKey = own.get? Document.idKey :=
    made.others _ (by decide) (by decide)
  rw [Store.id?_withDefaultId, ← kept]
  cases given : document.get? Document.idKey with
  | some value =>
      have held : document.contains Document.idKey = true :=
        Option.isSome_iff_exists.mpr ⟨value, given⟩
      rw [if_pos held, Document.id?, given]
      rfl
  | none =>
      have lacking : ¬ document.contains Document.idKey = true :=
        Option.not_isSome_iff_eq_none.mpr given
      rw [if_neg lacking, Document.filename?, made.filename]
      rfl

theorem FromFile.id?_cases (made : FromFile path type own document)
    (placed : path ≠ "") :
    (Unnamed own ∧ (Store.withDefaultId document).id? = none) ∨
      ∃ id, Identifies own path id ∧ (Store.withDefaultId document).id? = some id := by
  rw [made.id?_withDefaultId]
  cases given : own.get? Document.idKey with
  | some value =>
      by_cases blank : value.text = ""
      · exact .inl ⟨.inl ⟨value, given, blank⟩, if_pos blank⟩
      · exact .inr ⟨value.text, .id given blank, if_neg blank⟩
  | none =>
      cases named : own.get? Document.filenameKey with
      | none => exact .inr ⟨path, .path given named, by simp [Value.string?, placed]⟩
      | some name =>
          by_cases usable : ∃ text, name = .string text ∧ text ≠ ""
          · obtain ⟨text, rfl, filled⟩ := usable
            exact .inr ⟨text, .filename given named filled,
              by simp [Value.string?, filled]⟩
          · have blank (text : String) (same : name = .string text) : text = "" :=
              Decidable.of_not_not fun filled => usable ⟨text, same, filled⟩
            refine .inl ⟨.inr ⟨given, name, named, blank⟩, ?_⟩
            cases name with
            | string text => simp [Value.string?, blank text rfl]
            | _ => rfl

/-- How a store takes in the document of a file. -/
structure Takes (store : Store ρ) (path : String) (own document : Document ρ) : Prop where
  notSkipped : (store.add document).2 ≠ .skipped
  anonymous : (store.add document).2 = .anonymous ↔ Unnamed own
  identified : ¬ Unnamed own → ∃ id, Identifies own path id ∧
    (Store.withDefaultId document).id? = some id ∧
    (store.add document).2 = if store.contains id then .shadowed id else .indexed id
  appended : (store.add document).1.documents =
    store.documents ++ [Store.withDefaultId document]

theorem FromFile.takes (made : FromFile path type own document) (placed : path ≠ "")
    (store : Store ρ) : Takes store path own document := by
  have adds := store.adds document
  have notSkipped := adds.ne_skipped made.nonempty
  have added := adds.added_eq made.nonempty
  have appended := adds.documents_eq
  rw [List.filter_cons_of_pos (by simp [made.nonempty])] at appended
  rcases made.id?_cases placed with ⟨unnamed, missing⟩ | ⟨id, identifies, found⟩
  · rw [missing] at added
    refine ⟨notSkipped, iff_of_true added unnamed, ?_, appended⟩
    exact fun named => absurd unnamed named
  · rw [found] at added
    have reachable : (store.add document).2 ≠ .anonymous := by
      rw [added]
      dsimp only
      split <;> exact nofun
    refine ⟨notSkipped, iff_of_false reachable identifies.not_unnamed, ?_, appended⟩
    exact fun _ => ⟨id, identifies, found, added⟩

end Identified

section Loading

variable {tree : FileTree} {path : String} {type : FileType} {filters : Registry ρ}
  {document : Document ρ}

theorem ne_empty_of_readText? {text : String} (read : tree.readText? path = some text) :
    path ≠ "" := by
  rintro rfl
  cases read

theorem loadFile_eq_ok_iff :
    tree.loadFile path type filters = .ok document ↔
      ∃ text own, tree.readText? path = some text ∧
        ownDocument path type filters text = .ok own ∧
        (defaults path type).overlay own = document := by
  unfold loadFile
  cases read : tree.readText? path with
  | none => simp
  | some text =>
      dsimp only
      rw [documentOfText_eq]
      cases parsed : ownDocument path type filters text <;> simp [Except.map, parsed]

theorem fromFile_of_loadFile (loaded : tree.loadFile path type filters = .ok document) :
    ∃ text own, tree.readText? path = some text ∧
      ownDocument path type filters text = .ok own ∧
      FromFile path type own document ∧ ∀ store, Takes store path own document := by
  obtain ⟨text, own, read, parsed, rfl⟩ := loadFile_eq_ok_iff.mp loaded
  have made := defaults_overlay_fromFile path type own
  exact ⟨text, own, read, parsed, made, made.takes (ne_empty_of_readText? read)⟩

end Loading

end FileTree

/-! A report tells of each file whether its document is in the store. -/

theorem Store.documents_addAll (store : Store ρ) (documents : List (Document ρ)) :
    (store.addAll documents).documents = store.documents ++
      (documents.filter fun document => !document.isEmpty).map withDefaultId := by
  induction documents using List.reverseRecOn with
  | nil => simp
  | append_singleton documents document induction =>
      rw [addAll_append, addAll_singleton, (adds _ document).documents_eq, induction,
        List.filter_append, List.map_append, List.append_assoc]

namespace FileOutcome

def isStored (outcome : FileOutcome Added) : Bool :=
  match outcome.result with
  | .ok added => added ≠ .skipped
  | .error _ => false

theorem length_eq_values_add_failures {α : Type} (outcomes : List (FileOutcome α)) :
    outcomes.length =
      (outcomes.filterMap value?).length + (outcomes.filterMap failure?).length := by
  induction outcomes with
  | nil => rfl
  | cons outcome rest induction =>
      rcases outcome with ⟨path, error | value⟩
      · simp only [List.length_cons, List.filterMap_cons, value?, failure?,
          Except.toOption]
        omega
      · simp only [List.length_cons, List.filterMap_cons, value?, failure?,
          Except.toOption]
        omega

end FileOutcome

theorem LoadReport.stored_eq (report : LoadReport Added) :
    report.stored = report.files.countP FileOutcome.isStored := rfl

namespace Engine

theorem countP_isStored_answers (store : Store ρ)
    {outcomes : List (FileOutcome (Document ρ))}
    (nonempty : ∀ document ∈ outcomes.filterMap FileOutcome.value?,
      document.isEmpty = false) :
    (answers store outcomes).countP FileOutcome.isStored =
      (outcomes.filterMap FileOutcome.value?).length := by
  induction outcomes generalizing store with
  | nil => rfl
  | cons outcome rest induction =>
      rcases outcome with ⟨path, error | document⟩
      · exact induction _ nonempty
      · obtain ⟨first, others⟩ := List.forall_mem_cons.mp nonempty
        have stored : FileOutcome.isStored ⟨path, .ok (store.add document).2⟩ :=
          decide_eq_true ((store.adds document).ne_skipped first)
        change (⟨path, .ok _⟩ :: answers (store.addAll [document]) rest).countP _ = _
        rw [List.countP_cons_of_pos stored, induction _ others]
        rfl

section Loading

variable (engine : Engine ρ) (tree : FileTree)

/-- Why the document of a file is not there. -/
def failure? (path : String) : Option (String × LoadError) :=
  (engine.outcome? tree path).bind FileOutcome.failure?

theorem nonempty_of_mem_documents (paths : List String) :
    ∀ document ∈ paths.filterMap (engine.document? tree), document.isEmpty = false := by
  intro document member
  obtain ⟨path, -, found⟩ := List.mem_filterMap.mp member
  obtain ⟨type, -, read⟩ := Option.bind_eq_some_iff.mp found
  cases loaded : tree.loadFile path type engine.filters with
  | error error =>
      rw [loaded] at read
      cases read
  | ok document =>
      rw [loaded] at read
      cases read
      obtain ⟨_, own, -, -, made, -⟩ := FileTree.fromFile_of_loadFile loaded
      exact made.nonempty

theorem documents_loaded (store : Store ρ) (paths : List String) :
    (store.addAll (paths.filterMap (engine.document? tree))).documents =
      store.documents ++
        (paths.filterMap (engine.document? tree)).map Store.withDefaultId := by
  rw [Store.documents_addAll, List.filter_eq_self.mpr]
  intro document member
  rw [engine.nonempty_of_mem_documents tree paths document member]
  rfl

theorem stored_loaded (store : Store ρ) (paths : List String) :
    (answers store (paths.filterMap (engine.outcome? tree))).countP
        FileOutcome.isStored =
      (paths.filterMap (engine.document? tree)).length := by
  rw [← documents_eq]
  apply countP_isStored_answers
  rw [documents_eq]
  exact engine.nonempty_of_mem_documents tree paths

theorem failures_loaded (store : Store ρ) (paths : List String) :
    (answers store (paths.filterMap (engine.outcome? tree))).filterMap
        FileOutcome.failure? =
      paths.filterMap (engine.failure? tree) := by
  rw [failures_answers, List.filterMap_filterMap]
  rfl

/-- What a store and a report say of the files that a walk has given. -/
structure KeepsFiles (engine : Engine ρ) (tree : FileTree) (paths : List String)
    (store : Store ρ) (report : LoadReport Added) : Prop where
  files : report.files.map FileOutcome.path = paths.filter engine.recognizes
  failures : report.failures = paths.filterMap (engine.failure? tree)
  documents : store.documents = engine.store.documents ++
    (paths.filterMap (engine.document? tree)).map Store.withDefaultId
  either : ∀ path ∈ paths, ∀ type, engine.fileTypes.forPath? path = some type →
    (∃ error, tree.loadFile path type engine.filters = .error error ∧
      (path, error) ∈ report.failures) ∨
    ∃ document, tree.loadFile path type engine.filters = .ok document ∧
      Store.withDefaultId document ∈ store.documents.drop engine.store.size
  balanced : report.files.length = report.stored + report.failures.length
  grown : store.size = engine.store.size + report.stored

variable {engine tree} {root : String} {paths : List String}

theorem keepsFiles_of_walk (walked : tree.walk? root = some paths)
    {report : LoadReport Added}
    (reported : (engine.loadTree tree root).result = .ok report) :
    KeepsFiles engine tree paths (engine.loadTree tree root).engine.store report := by
  rw [loadTree_eq walked] at reported ⊢
  cases reported
  refine {
    files := ?files
    failures := failures_loaded engine tree engine.store paths
    documents := documents_loaded engine tree engine.store paths
    either := ?either
    balanced := ?balanced
    grown := ?grown }
  case files => rw [map_path_answers, map_path_outcomes]
  case either =>
    intro path member type recognized
    cases loaded : tree.loadFile path type engine.filters with
    | error error =>
        refine .inl ⟨error, rfl, ?_⟩
        rw [LoadReport.failures_eq, failures_loaded]
        refine List.mem_filterMap.mpr ⟨path, member, ?_⟩
        simp [failure?, outcome?, recognized, loaded, FileOutcome.failure?]
    | ok document =>
        refine .inr ⟨document, rfl, ?_⟩
        rw [documents_loaded, Store.size, List.drop_left]
        refine List.mem_map_of_mem (List.mem_filterMap.mpr ⟨path, member, ?_⟩)
        simp [document?, recognized, loaded, Except.toOption]
  case balanced =>
    rw [LoadReport.stored_eq, LoadReport.failures_eq, stored_loaded, failures_answers,
      length_answers, FileOutcome.length_eq_values_add_failures, documents_eq]
  case grown =>
    rw [LoadReport.stored_eq, stored_loaded, Store.size, documents_loaded,
      List.length_append, List.length_map]
    rfl

end Loading

/-- No file is lost: one that is recognized is reported as a failure or stored, under
an identifier unless the file itself takes that away. -/
theorem loadTree_losesNothing (engine : Engine ρ) (tree : FileTree) :
    (∀ root report, (engine.loadTree tree root).result = .ok report →
      ∃ paths, tree.walk? root = some paths ∧
        KeepsFiles engine tree paths (engine.loadTree tree root).engine.store report) ∧
    ∀ path type document, tree.loadFile path type engine.filters = .ok document →
      ∃ text own, tree.readText? path = some text ∧
        FileTree.ownDocument path type engine.filters text = .ok own ∧
        FileTree.FromFile path type own document ∧
        ∀ store, FileTree.Takes store path own document := by
  refine ⟨?_, fun _ _ _ => FileTree.fromFile_of_loadFile⟩
  intro root report reported
  cases walked : tree.walk? root with
  | none =>
      rw [loadTree_of_unwalkable walked] at reported
      cases reported
  | some paths => exact ⟨paths, rfl, keepsFiles_of_walk walked reported⟩

end Engine

theorem failures_mixedTree :
    ["site/a/z.txt", "site/a.txt", "site/b.bin", "site/c.json"].filterMap
        (Engine.failure? ({} : Engine Empty) mixedTree) =
      [("site/c.json", .notAnObject "site/c.json")] := by
  have outcomes := congrArg (List.filterMap FileOutcome.failure?) outcomes_mixedTree
  rw [List.filterMap_filterMap] at outcomes
  exact outcomes

theorem mixedTree_keepsFiles :
    (∃ report,
      (Engine.loadTree ({} : Engine Empty) mixedTree "site").result = .ok report ∧
      report.failures = [("site/c.json", .notAnObject "site/c.json")] ∧
      report.stored = 2 ∧
      (Engine.loadTree ({} : Engine Empty) mixedTree "site").engine.store.size = 2) ∧
    ∃ document : Document Empty,
      mixedTree.loadFile "site/a/z.txt" { contentType := "text/plain" } Registry.builtin =
        .ok document ∧
      (Store.empty.add document).2 = .indexed "page" := by
  obtain ⟨keeps, takes⟩ := Engine.loadTree_losesNothing ({} : Engine Empty) mixedTree
  constructor
  · obtain ⟨report, loads⟩ := Engine.loads_of_walk walk?_mixedTree.1
    obtain ⟨paths, walked, kept⟩ := keeps "site" report loads.result_eq
    obtain rfl := Option.some.inj (walk?_mixedTree.1.symm.trans walked)
    have failures := kept.failures.trans failures_mixedTree
    have recognized := congrArg List.length kept.files
    rw [List.length_map] at recognized
    have three : (["site/a/z.txt", "site/a.txt", "site/b.bin", "site/c.json"].filter
        ({} : Engine Empty).recognizes).length = 3 := by decide +kernel
    have balanced := kept.balanced
    rw [recognized, three, failures] at balanced
    have stored : report.stored = 2 := (Nat.succ.inj balanced).symm
    refine ⟨report, loads.result_eq, failures, stored, ?_⟩
    rw [kept.grown, stored]
    rfl
  · cases loaded : mixedTree.loadFile "site/a/z.txt" { contentType := "text/plain" }
        (Registry.builtin : Registry Empty) with
    | error error =>
        rw [FileTree.loadFile, readText?_mixedTree.1] at loaded
        cases loaded
    | ok document =>
        refine ⟨document, rfl, ?_⟩
        obtain ⟨text, own, read, parsed, made, taken⟩ := takes _ _ document loaded
        obtain rfl := Option.some.inj (readText?_mixedTree.1.symm.trans read)
        have given : own.get? Document.idKey = some (.string "page") := by
          cases parsed
          decide +kernel
        have identified : FileTree.Identifies own "site/a/z.txt" "page" :=
          .id given (by decide)
        obtain ⟨id, -, found, added⟩ :=
          (taken .empty).identified identified.not_unnamed
        rw [made.id?_withDefaultId, given] at found
        obtain rfl : "page" = id := Option.some.inj found
        exact added

end Compositor
