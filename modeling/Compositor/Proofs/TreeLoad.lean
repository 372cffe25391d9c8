import Mathlib.Data.List.Perm.Basic
import Compositor.Engine
import Compositor.Proofs.DecidableValues
import Compositor.Proofs.TreePaths

namespace Compositor

variable {ρ : Type}

/-! The files of a tree are read one by one, and added in the order of their paths. -/

namespace Store

def addAll (store : Store ρ) (documents : List (Document ρ)) : Store ρ :=
  documents.foldl (fun store document => (store.add document).1) store

@[simp] theorem addAll_nil (store : Store ρ) : store.addAll [] = store := rfl

@[simp] theorem addAll_append (store : Store ρ) (first second : List (Document ρ)) :
    store.addAll (first ++ second) = (store.addAll first).addAll second :=
  List.foldl_append

theorem addAll_singleton (store : Store ρ) (document : Document ρ) :
    store.addAll [document] = (store.add document).1 := rfl

end Store

deriving instance DecidableEq for FileOutcome

namespace FileOutcome

variable {α β : Type}

def map (change : α → β) (outcome : FileOutcome α) : FileOutcome β :=
  ⟨outcome.path, outcome.result.map change⟩

def value? (outcome : FileOutcome α) : Option α := outcome.result.toOption

def failure? (outcome : FileOutcome α) : Option (String × LoadError) :=
  match outcome.result with
  | .ok _ => none
  | .error error => some (outcome.path, error)

/-- An identifier that was taken, and the file that came too late. -/
def shadowed? (outcome : FileOutcome Added) : Option (String × String) :=
  match outcome.result with
  | .ok (.shadowed id) => some (id, outcome.path)
  | _ => none

@[simp] theorem path_map (change : α → β) (outcome : FileOutcome α) :
    (outcome.map change).path = outcome.path := rfl

@[simp] theorem failure?_map (change : α → β) (outcome : FileOutcome α) :
    (outcome.map change).failure? = outcome.failure? := by
  rcases outcome with ⟨path, error | value⟩ <;> rfl

end FileOutcome

def LoadReport.shadowed (report : LoadReport Added) : List (String × String) :=
  report.files.filterMap FileOutcome.shadowed?

theorem LoadReport.failures_eq {α : Type} (report : LoadReport α) :
    report.failures = report.files.filterMap FileOutcome.failure? := rfl

namespace Engine

/-- What a store answers when the documents of files are added one after another. -/
def answers (store : Store ρ) :
    List (FileOutcome (Document ρ)) → List (FileOutcome Added)
  | [] => []
  | outcome :: rest =>
      outcome.map (fun document => (store.add document).2) ::
        answers (store.addAll outcome.value?.toList) rest

section Answers

variable (store : Store ρ) (outcomes : List (FileOutcome (Document ρ)))

theorem map_path_answers :
    (answers store outcomes).map FileOutcome.path = outcomes.map FileOutcome.path := by
  induction outcomes generalizing store with
  | nil => rfl
  | cons outcome rest induction => simp [answers, induction]

theorem failures_answers :
    (answers store outcomes).filterMap FileOutcome.failure? =
      outcomes.filterMap FileOutcome.failure? := by
  induction outcomes generalizing store with
  | nil => rfl
  | cons outcome rest induction => simp [answers, List.filterMap_cons, induction]

theorem length_answers : (answers store outcomes).length = outcomes.length := by
  simpa using congrArg List.length (map_path_answers store outcomes)

theorem answers_append (after : List (FileOutcome (Document ρ))) :
    answers store (outcomes ++ after) = answers store outcomes ++
      answers (store.addAll (outcomes.filterMap FileOutcome.value?)) after := by
  induction outcomes generalizing store with
  | nil => rfl
  | cons outcome rest induction =>
      have documents : (outcome :: rest).filterMap FileOutcome.value? =
          outcome.value?.toList ++ rest.filterMap FileOutcome.value? := by
        cases found : outcome.value? <;> simp [found]
      rw [List.cons_append, answers, induction, answers, List.cons_append, documents,
        Store.addAll_append]

theorem getElem?_answers (before : List (FileOutcome (Document ρ)))
    (outcome : FileOutcome (Document ρ)) (after : List (FileOutcome (Document ρ))) :
    (answers store (before ++ outcome :: after))[before.length]? =
      some (outcome.map fun document =>
        ((store.addAll (before.filterMap FileOutcome.value?)).add document).2) := by
  rw [answers_append, ← length_answers store before,
    List.getElem?_append_right (Nat.le_refl _), Nat.sub_self]
  rfl

end Answers

def shadowedWarning (shadowed : String × String) : Message :=
  Log.warning (shadowedText shadowed.1 shadowed.2)

theorem Progress.advance_eq (progress : Progress ρ)
    (outcome : FileOutcome (Document ρ)) :
    progress.advance outcome =
      { store := progress.store.addAll outcome.value?.toList
        files := progress.files ++ answers progress.store [outcome]
        log := progress.log ++
          ((answers progress.store [outcome]).filterMap
            FileOutcome.shadowed?).map shadowedWarning } := by
  rcases outcome with ⟨path, error | document⟩
  · simp [advance, answers, FileOutcome.map, FileOutcome.value?, FileOutcome.shadowed?,
      Except.map, Except.toOption]
  · simp only [advance, answers, FileOutcome.map, FileOutcome.value?, Except.map,
      Except.toOption, Option.toList_some, Store.addAll_singleton]
    rcases progress.store.add document with ⟨store, _ | _ | _ | _⟩ <;>
      simp [FileOutcome.shadowed?, shadowedWarning]

theorem Progress.foldl_advance (progress : Progress ρ)
    (outcomes : List (FileOutcome (Document ρ))) :
    outcomes.foldl advance progress =
      { store := progress.store.addAll (outcomes.filterMap FileOutcome.value?)
        files := progress.files ++ answers progress.store outcomes
        log := progress.log ++
          ((answers progress.store outcomes).filterMap
            FileOutcome.shadowed?).map shadowedWarning } := by
  induction outcomes using List.reverseRecOn with
  | nil => simp [answers]
  | append_singleton outcomes outcome induction =>
      rw [List.foldl_append, List.foldl_cons, List.foldl_nil, induction, advance_eq]
      cases found : outcome.value? <;> simp [answers_append, found]

section Loading

variable (engine : Engine ρ) (tree : FileTree)

def recognizes (path : String) : Bool := (engine.fileTypes.forPath? path).isSome

def outcome? (path : String) : Option (FileOutcome (Document ρ)) :=
  (engine.fileTypes.forPath? path).map fun type =>
    ⟨path, tree.loadFile path type engine.filters⟩

/-- The document in a file that is of known type and can be loaded. -/
def document? (path : String) : Option (Document ρ) :=
  (engine.fileTypes.forPath? path).bind fun type =>
    (tree.loadFile path type engine.filters).toOption

theorem outcome?_bind_value? (path : String) :
    (engine.outcome? tree path).bind FileOutcome.value? = engine.document? tree path := by
  unfold outcome? document?
  cases engine.fileTypes.forPath? path <;> rfl

theorem documents_eq (paths : List String) :
    (paths.filterMap (engine.outcome? tree)).filterMap FileOutcome.value? =
      paths.filterMap (engine.document? tree) := by
  rw [List.filterMap_filterMap]
  simp only [outcome?_bind_value?]

theorem map_path_outcomes (paths : List String) :
    (paths.filterMap (engine.outcome? tree)).map FileOutcome.path =
      paths.filter engine.recognizes := by
  rw [List.map_filterMap, ← List.filterMap_eq_filter]
  apply List.filterMap_congr
  intro path _
  unfold outcome? recognizes
  cases found : engine.fileTypes.forPath? path <;> simp [Option.guard, found]

def skippedMessage (path : String) : Message :=
  Log.debug ("Skipping file with unknown type: " ++ path)

def readingMessage (path : String) : Message :=
  Log.info ("Processing content file: " ++ path)

def failureMessage (failure : String × LoadError) : Message :=
  Log.error failure.2.message

theorem fileLog_eq (outcome : FileOutcome (Document ρ)) :
    FileTree.fileLog outcome =
      readingMessage outcome.path :: outcome.failure?.toList.map failureMessage := by
  rcases outcome with ⟨path, error | document⟩ <;> rfl

theorem flatMap_fileLog_perm (outcomes : List (FileOutcome (Document ρ))) :
    (outcomes.flatMap FileTree.fileLog).Perm
      ((outcomes.map FileOutcome.path).map readingMessage ++
        (outcomes.filterMap FileOutcome.failure?).map failureMessage) := by
  have separated := List.map_append_flatMap_perm outcomes
    (fun outcome => readingMessage outcome.path)
    (fun outcome => outcome.failure?.toList.map failureMessage)
  simp only [← fileLog_eq] at separated
  rw [List.map_map, List.filterMap_eq_flatMap_toList, List.map_flatMap]
  exact separated.symm

/-- What comes of a load when the walk gives these paths. Each file is answered by the
store as the files in front of it have left it. -/
structure Loads (engine : Engine ρ) (tree : FileTree) (paths : List String)
    (loaded : Loaded ρ) (report : LoadReport Added) : Prop where
  result_eq : loaded.result = .ok report
  engine_eq : loaded.engine =
    { engine with
      store := engine.store.addAll (paths.filterMap (engine.document? tree)) }
  files_eq : report.files.map FileOutcome.path = paths.filter engine.recognizes
  answered : ∀ before path after type, paths = before ++ path :: after →
    engine.fileTypes.forPath? path = some type →
    report.files[(before.filter engine.recognizes).length]? = some
      ⟨path, (tree.loadFile path type engine.filters).map fun document =>
        ((engine.store.addAll (before.filterMap (engine.document? tree))).add
          document).2⟩
  skipped_eq : report.skipped = paths.filter fun path => !engine.recognizes path
  log_perm : loaded.log.Perm
    (report.skipped.map skippedMessage ++
      (report.files.map fun outcome => readingMessage outcome.path) ++
      report.failures.map failureMessage ++ report.shadowed.map shadowedWarning)

variable {engine tree} {root : String} {paths : List String}

theorem loadTree_eq (walked : tree.walk? root = some paths) :
    let outcomes := paths.filterMap (engine.outcome? tree)
    let skipped := paths.filter fun path => !engine.recognizes path
    engine.loadTree tree root =
      { engine :=
          { engine with
            store := engine.store.addAll (paths.filterMap (engine.document? tree)) }
        result := .ok { files := answers engine.store outcomes, skipped }
        log := skipped.map skippedMessage ++ outcomes.flatMap FileTree.fileLog ++
          ((answers engine.store outcomes).filterMap
            FileOutcome.shadowed?).map shadowedWarning } := by
  intro outcomes skipped
  have discovered : tree.discover root = .ok paths := by
    rw [FileTree.discover, walked]
  have read : tree.loadFiles paths engine.fileTypes engine.filters =
      ({ files := outcomes, skipped },
        skipped.map skippedMessage ++ outcomes.flatMap FileTree.fileLog) := by
    have unknown : skipped =
        paths.filter fun path => (engine.fileTypes.forPath? path).isNone := by
      simp only [skipped, recognizes, Option.not_isSome]
    rw [unknown]
    rfl
  simp only [loadTree, discovered, read, Progress.foldl_advance, List.nil_append,
    outcomes, documents_eq]

theorem loads_of_walk (walked : tree.walk? root = some paths) :
    ∃ report, Loads engine tree paths (engine.loadTree tree root) report := by
  rw [loadTree_eq walked]
  refine ⟨_, ⟨rfl, rfl, ?_, ?_, rfl, ?_⟩⟩
  · rw [map_path_answers, map_path_outcomes]
  · rintro before path after type rfl recognized
    have outcome : engine.outcome? tree path =
        some ⟨path, tree.loadFile path type engine.filters⟩ := by
      simp [outcome?, recognized]
    have position : (before.filterMap (engine.outcome? tree)).length =
        (before.filter engine.recognizes).length := by
      rw [← map_path_outcomes engine tree, List.length_map]
    have answered := getElem?_answers engine.store
      (before.filterMap (engine.outcome? tree))
      ⟨path, tree.loadFile path type engine.filters⟩
      (after.filterMap (engine.outcome? tree))
    rw [position, documents_eq] at answered
    rw [List.filterMap_append, List.filterMap_cons, outcome]
    exact answered
  · rw [LoadReport.failures_eq, failures_answers]
    have reading : (answers engine.store (paths.filterMap (engine.outcome? tree))).map
          (fun outcome => readingMessage outcome.path) =
        ((paths.filterMap (engine.outcome? tree)).map FileOutcome.path).map
          readingMessage := by
      rw [← map_path_answers engine.store, List.map_map]
      rfl
    dsimp only
    rw [reading, List.append_assoc _ _ (List.map failureMessage _)]
    exact ((flatMap_fileLog_perm _).append_left _).append_right _

theorem loadTree_of_unwalkable (unwalkable : tree.walk? root = none) :
    engine.loadTree tree root =
      { engine, result := .error (.walk root)
        log := [Log.error (LoadError.walk root).message] } := by
  rw [loadTree, FileTree.discover, unwalkable]

theorem loadTree_congr {other : FileTree} (walked : other.walk? root = tree.walk? root)
    (read : other.readText? = tree.readText?) :
    engine.loadTree other root = engine.loadTree tree root := by
  simp only [loadTree, FileTree.discover, FileTree.loadFiles, FileTree.loadFile, walked,
    read]

/-! Deleting the files that add nothing. -/

/-- What is there is a file below the root that is of no known type or cannot be
loaded. -/
def AddsNothing (engine : Engine ρ) (tree : FileTree) (root : String)
    (place location : Location) : Prop :=
  ∃ names content, location = place ++ names ∧
    tree.Below place names (.file content) ∧
    engine.document? tree (Path.below root names) = none

theorem document?_congr {other : FileTree} {path : String}
    (read : other.readText? path = tree.readText? path) :
    engine.document? other path = engine.document? tree path := by
  simp only [document?, FileTree.loadFile, read]

section Deleting

variable {place : Location} {drop : Location → Bool}

theorem AddsNothing.node?_eq (wellFormed : tree.WellFormed) {location : Location}
    (nothing : engine.AddsNothing tree root place location) :
    ∃ content, tree.node? location = some (.file content) := by
  obtain ⟨names, content, rfl, below, -⟩ := nothing
  exact ⟨content, wellFormed.node?_eq below.stored⟩

theorem document?_removeWhere (wellFormed : tree.WellFormed)
    (opens : tree.OpensAt root place)
    (nothing : ∀ location, drop location = true →
      engine.AddsNothing tree root place location)
    {names : List String} {content : ByteArray}
    (below : tree.Below place names (.file content))
    (kept : drop (place ++ names) = false) :
    engine.document? (tree.removeWhere drop) (Path.below root names) =
      engine.document? tree (Path.below root names) := by
  have onlyFiles := fun location dropped =>
    (nothing location dropped).node?_eq wellFormed
  have opensStill := opens.of_sameWays (FileTree.sameWays_removeWhere onlyFiles)
  have wellFormedStill := wellFormed.removeWhere onlyFiles
  apply document?_congr
  rw [opensStill.readText?_below wellFormedStill (below.removeWhere kept),
    opens.readText?_below wellFormed below]

theorem documents_removeWhere (wellFormed : tree.WellFormed)
    (opens : tree.OpensAt root place)
    (nothing : ∀ location, drop location = true →
      engine.AddsNothing tree root place location) :
    (((tree.removeWhere drop).filesBelow place).map (Path.below root)).filterMap
        (engine.document? (tree.removeWhere drop)) =
      ((tree.filesBelow place).map (Path.below root)).filterMap
        (engine.document? tree) := by
  rw [tree.filesBelow_removeWhere, List.filterMap_map, List.filterMap_map,
    List.filterMap_filter]
  apply List.filterMap_congr
  intro names member
  obtain ⟨content, below⟩ := (tree.mem_filesBelow_iff place names).mp member
  cases dropped : drop (place ++ names) with
  | true =>
      obtain ⟨others, _, same, -, none⟩ := nothing _ dropped
      obtain rfl := List.append_cancel_left same
      simp [none]
  | false => simpa using document?_removeWhere wellFormed opens nothing below dropped

theorem engine_removeWhere (wellFormed : tree.WellFormed)
    (opens : tree.OpensAt root place)
    (nothing : ∀ location, drop location = true →
      engine.AddsNothing tree root place location) :
    (engine.loadTree (tree.removeWhere drop) root).engine =
      (engine.loadTree tree root).engine := by
  have onlyFiles := fun location dropped =>
    (nothing location dropped).node?_eq wellFormed
  have opensStill := opens.of_sameWays (FileTree.sameWays_removeWhere onlyFiles)
  rw [loadTree_eq opens.walk?_eq, loadTree_eq opensStill.walk?_eq,
    documents_removeWhere wellFormed opens nothing]

end Deleting

end Loading

/-- Loading a tree gives the same for every order in which its entries are met. What
cannot be loaded is reported, and may as well be deleted, some of it or all. -/
theorem loadTree_deterministic (engine : Engine ρ) (tree : FileTree)
    (root : String) :
    (∀ paths, tree.walk? root = some paths →
      ∃ report, Loads engine tree paths (engine.loadTree tree root) report) ∧
    (tree.walk? root = none →
      engine.loadTree tree root =
        { engine, result := .error (.walk root)
          log := [Log.error (LoadError.walk root).message] }) ∧
    (∀ other : FileTree, other.nodes.Perm tree.nodes →
      engine.loadTree other root = engine.loadTree tree root) ∧
    ∀ place, tree.OpensAt root place →
      (∃ files : List (List String),
        tree.walk? root = some (files.map (Path.below root)) ∧
        files.Pairwise (List.Lex (· < ·)) ∧
        ∀ names, names ∈ files ↔ ∃ content, tree.Below place names (.file content)) ∧
      (tree.WellFormed →
        (∀ paths, tree.walk? root = some paths → paths.Nodup) ∧
        ∀ drop : Location → Bool,
          (∀ location, drop location = true →
            engine.AddsNothing tree root place location) →
          (engine.loadTree (tree.removeWhere drop) root).engine =
            (engine.loadTree tree root).engine) := by
  refine ⟨fun _ => loads_of_walk, loadTree_of_unwalkable, ?_, ?_⟩
  · intro other permuted
    exact loadTree_congr (FileTree.walk?_perm permuted)
      (funext (FileTree.readText?_perm permuted))
  · intro place opens
    refine ⟨⟨tree.filesBelow place, opens.walk?_eq, tree.filesBelow_increasing place,
      tree.mem_filesBelow_iff place⟩, fun wellFormed => ⟨?_, ?_⟩⟩
    · intro paths walked
      rw [opens.walk?_eq, Option.some_inj] at walked
      exact walked ▸ opens.paths_nodup wellFormed
    · intro drop
      exact engine_removeWhere wellFormed opens

end Engine

/-- Two pages with one identifier, a document that is not an object, and a file of
unknown type. -/
def mixedTree : FileTree where
  nodes := [(["site"], .directory), (["site", "b.bin"], .file "01".toUTF8),
    (["site", "a.txt"], .file "@@ id page\nLater".toUTF8), (["site", "a"], .directory),
    (["site", "a", "z.txt"], .file "@@ id page\nFirst".toUTF8),
    (["site", "c.json"], .file "[]".toUTF8)]
  distinct := by decide

def isUseless (location : Location) : Bool :=
  location = ["site", "b.bin"] || location = ["site", "c.json"]

theorem mixedTree_wellFormed : mixedTree.WellFormed := by
  have fileName : IsFileName "site" ∧ IsFileName "a" ∧ IsFileName "a.txt" ∧
      IsFileName "z.txt" ∧ IsFileName "b.bin" ∧ IsFileName "c.json" := by
    refine ⟨?_, ?_, ?_, ?_, ?_, ?_⟩ <;>
      exact ⟨⟨by decide, by decide, by decide⟩, by decide⟩
  obtain ⟨site, a, aText, zText, bBin, cJson⟩ := fileName
  rintro location node stored
  simp only [mixedTree, List.mem_cons, Prod.mk.injEq, List.not_mem_nil,
    or_false] at stored
  rcases stored with ⟨rfl, -⟩ | ⟨rfl, -⟩ | ⟨rfl, -⟩ | ⟨rfl, -⟩ | ⟨rfl, -⟩ | ⟨rfl, -⟩
  · exact ⟨[], _, rfl, site, rfl⟩
  · exact ⟨["site"], _, rfl, bBin, rfl⟩
  · exact ⟨["site"], _, rfl, aText, rfl⟩
  · exact ⟨["site"], _, rfl, a, rfl⟩
  · exact ⟨["site", "a"], _, rfl, zText, rfl⟩
  · exact ⟨["site"], _, rfl, cJson, rfl⟩

theorem mixedTree_opensAt : mixedTree.OpensAt "site" ["site"] := by
  have root : Path.split "site" = ["site"] := by decide +kernel
  refine ⟨?_, rfl⟩
  simp [FileTree.locate?, FileTree.start, root, FileTree.follow,
      FileTree.node?, FileTree.isAlwaysThere, mixedTree, List.lookup_cons]

theorem filesBelow_mixedTree :
    mixedTree.filesBelow ["site"] =
      [["a", "z.txt"], ["a.txt"], ["b.bin"], ["c.json"]] := by
  apply FileTree.eq_of_sorted _ (mixedTree.filesBelow_sorted _) (by decide +kernel)
  have listed : mixedTree.nodes.filterMap (FileTree.downFrom? ["site"]) =
      [["b.bin"], ["a.txt"], ["a", "z.txt"], ["c.json"]] := rfl
  rw [FileTree.filesBelow_eq, listed]
  exact (List.mergeSort_perm _ _).trans (by decide +kernel)

theorem mixedTree_addsNothing (location : Location)
    (useless : isUseless location = true) :
    Engine.AddsNothing ({} : Engine Empty) mixedTree "site" ["site"] location := by
  simp only [isUseless, Bool.or_eq_true, decide_eq_true_eq] at useless
  rcases useless with rfl | rfl
  · exact ⟨["b.bin"], "01".toUTF8, rfl, ⟨by simp [mixedTree], by decide⟩,
      by decide +kernel⟩
  · have below : mixedTree.Below ["site"] ["c.json"] (.file "[]".toUTF8) :=
      ⟨by simp [mixedTree], by decide⟩
    have text := mixedTree_opensAt.readText?_below mixedTree_wellFormed below
    refine ⟨["c.json"], _, rfl, below, ?_⟩
    rw [Engine.document?]
    simp only [FileTree.loadFile, text]
    decide +kernel

theorem walk?_mixedTree :
    mixedTree.walk? "site" =
        some ["site/a/z.txt", "site/a.txt", "site/b.bin", "site/c.json"] ∧
      mixedTree.walk? "gone" = none := by
  constructor
  · rw [mixedTree_opensAt.walk?_eq, filesBelow_mixedTree]
    decide +kernel
  · have root : Path.split "gone" = ["gone"] := by decide +kernel
    have absent : mixedTree.locate? "gone" false = none := by
      simp [FileTree.locate?, FileTree.start, root, FileTree.follow, FileTree.node?,
        FileTree.isAlwaysThere, mixedTree, List.lookup_cons]
    rw [FileTree.walk?, absent]
    rfl

theorem readText?_mixedTree :
    mixedTree.readText? "site/a/z.txt" = some "@@ id page\nFirst" ∧
      mixedTree.readText? "site/a.txt" = some "@@ id page\nLater" ∧
      mixedTree.readText? "site/c.json" = some "[]" := by
  have read (names : List String) (text : String)
      (stored : (["site"] ++ names, Node.file text.toUTF8) ∈ mixedTree.nodes)
      (down : ∀ name ∈ names.head?, name ≠ ".." ∧ name ≠ "/") :
      mixedTree.readText? (Path.below "site" names) = String.fromUTF8? text.toUTF8 :=
    mixedTree_opensAt.readText?_below mixedTree_wellFormed ⟨stored, down⟩
  have first := read ["a", "z.txt"] "@@ id page\nFirst" (by simp [mixedTree]) (by decide)
  have second := read ["a.txt"] "@@ id page\nLater" (by simp [mixedTree]) (by decide)
  have third := read ["c.json"] "[]" (by simp [mixedTree]) (by decide)
  have paths : Path.below "site" ["a", "z.txt"] = "site/a/z.txt" ∧
      Path.below "site" ["a.txt"] = "site/a.txt" ∧
      Path.below "site" ["c.json"] = "site/c.json" := by decide +kernel
  rw [paths.1] at first
  rw [paths.2.1] at second
  rw [paths.2.2] at third
  rw [first, second, third]
  decide +kernel

def mixedOutcomes : List (FileOutcome (Document Empty)) :=
  [⟨"site/a/z.txt", .ok (.ofEntries [("contentType", .string "text/plain"),
      ("filename", .string "site/a/z.txt"), ("id", .string "page"),
      ("content", .string "First")])⟩,
    ⟨"site/a.txt", .ok (.ofEntries [("contentType", .string "text/plain"),
      ("filename", .string "site/a.txt"), ("id", .string "page"),
      ("content", .string "Later")])⟩,
    ⟨"site/c.json", .error (.notAnObject "site/c.json")⟩]

theorem outcomes_mixedTree :
    ["site/a/z.txt", "site/a.txt", "site/b.bin", "site/c.json"].filterMap
      (Engine.outcome? ({} : Engine Empty) mixedTree) = mixedOutcomes := by
  obtain ⟨first, second, third⟩ := readText?_mixedTree
  simp only [Engine.outcome?, List.filterMap_cons, List.filterMap_nil, FileTree.loadFile]
  simp only [first, second, third]
  decide +kernel

def mixedReport : LoadReport Added where
  files := [⟨"site/a/z.txt", .ok (.indexed "page")⟩, ⟨"site/a.txt", .ok (.shadowed "page")⟩,
    ⟨"site/c.json", .error (.notAnObject "site/c.json")⟩]
  skipped := ["site/b.bin"]

def mixedLog : Log :=
  [Log.debug "Skipping file with unknown type: site/b.bin",
    Log.info "Processing content file: site/a/z.txt",
    Log.info "Processing content file: site/a.txt",
    Log.info "Processing content file: site/c.json",
    Log.error "JSON document site/c.json must contain an object",
    Log.warning ("Document id \"page\" in site/a.txt is already taken; " ++
      "it will not be reachable by id")]

theorem loadTree_mixedTree :
    let loaded := Engine.loadTree ({} : Engine Empty) mixedTree "site"
    loaded.engine.store.documents = mixedOutcomes.filterMap FileOutcome.value? ∧
      loaded.result = .ok mixedReport ∧ loaded.log = mixedLog := by
  have skipped : ["site/a/z.txt", "site/a.txt", "site/b.bin", "site/c.json"].filter
      (fun path => !({} : Engine Empty).recognizes path) = ["site/b.bin"] := by
    decide +kernel
  have answered : Engine.answers ({} : Engine Empty).store mixedOutcomes =
      mixedReport.files := by decide +kernel
  rw [Engine.loadTree_eq walk?_mixedTree.1, ← Engine.documents_eq, outcomes_mixedTree,
    skipped]
  dsimp only
  rw [answered]
  exact ⟨by decide +kernel, rfl, by decide +kernel⟩

theorem mixedTree_loaded :
    let loaded := Engine.loadTree ({} : Engine Empty) mixedTree "site"
    mixedTree.WellFormed ∧ mixedTree.OpensAt "site" ["site"] ∧
      (∀ location, isUseless location = true →
        Engine.AddsNothing ({} : Engine Empty) mixedTree "site" ["site"] location) ∧
      Engine.Loads ({} : Engine Empty) mixedTree
        ["site/a/z.txt", "site/a.txt", "site/b.bin", "site/c.json"] loaded mixedReport ∧
      loaded.engine.store.documents = mixedOutcomes.filterMap FileOutcome.value? ∧
      loaded.log = mixedLog ∧
      (∃ other : FileTree, other.nodes = mixedTree.nodes.reverse ∧
        Engine.loadTree ({} : Engine Empty) other "site" = loaded) ∧
      (Engine.loadTree ({} : Engine Empty) (mixedTree.removeWhere isUseless)
          "site").engine = loaded.engine ∧
      (Engine.loadTree ({} : Engine Empty) mixedTree "gone").log =
        [Log.error "Unable to read content directory gone: "] := by
  intro loaded
  obtain ⟨loads, -, permuted, directory⟩ :=
    Engine.loadTree_deterministic ({} : Engine Empty) mixedTree "site"
  obtain ⟨-, failed, -⟩ :=
    Engine.loadTree_deterministic ({} : Engine Empty) mixedTree "gone"
  have reversed := List.reverse_perm mixedTree.nodes
  obtain ⟨-, deletes⟩ := (directory _ mixedTree_opensAt).2 mixedTree_wellFormed
  obtain ⟨documents, result, log⟩ := loadTree_mixedTree
  obtain ⟨report, reported⟩ := loads _ walk?_mixedTree.1
  obtain rfl : mixedReport = report := Except.ok.inj (result.symm.trans reported.result_eq)
  refine ⟨mixedTree_wellFormed, mixedTree_opensAt, mixedTree_addsNothing, reported,
    documents, log, ⟨⟨mixedTree.nodes.reverse, ?_⟩, rfl, permuted _ reversed⟩,
    deletes _ mixedTree_addsNothing, ?_⟩
  · exact (reversed.map Prod.fst).nodup_iff.mpr mixedTree.distinct
  · rw [failed walk?_mixedTree.2]
    rfl

end Compositor
