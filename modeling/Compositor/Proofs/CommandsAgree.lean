import Compositor.CommandLine
import Compositor.Proofs.ConcreteOutput
import Compositor.Proofs.ConfigOrder
import Compositor.Proofs.StoreGrowth

namespace Compositor

namespace Command

/-- The outcome is a value in print. -/
def Outcome.Shows (outcome : Outcome) (code : Nat) (value : Value Empty) : Prop :=
  ∃ text, Json.writeIndented value = .ok text ∧ outcome = ⟨code, text ++ "\n"⟩

theorem printed_shows (code : Nat) {value : Value Empty} (concrete : value.Concrete) :
    (printed code value).Shows code value := by
  obtain ⟨text, written⟩ := Json.writeIndented_ok concrete
  exact ⟨text, written, by rw [printed, written]⟩

/-! The objects that tell of a failure. -/

def failureObject (message : String) (statusCode : Nat) : Value Empty :=
  .map [("error", .string message), ("statusCode", .int (Int64.ofNat statusCode))]

def notFoundObject : Value Empty :=
  failureObject "The requested document was not found" 404

theorem failure_shows (message : String) (statusCode : Nat) :
    (failure message statusCode).Shows 1 (failureObject message statusCode) :=
  printed_shows 1 (.map (by simp [Value.Concrete.string, Value.Concrete.int]))

/-- The engine before the content tree is loaded into it. -/
def configured? (tree : FileTree) (order : Config.Order) :
    Option String → Option (Engine Empty)
  | none => some {}
  | some path =>
      (Config.ofFile tree path).toOption.map fun overrides =>
        Engine.configure {} overrides order

/-- The configuration, if one is named and can be read, is unambiguous. -/
def Settled (tree : FileTree) (config : Option String) : Prop :=
  ∀ path overrides, config = some path → Config.ofFile tree path = .ok overrides →
    overrides.Unambiguous

theorem load?_eq (tree : FileTree) (command : Command) (order : Config.Order) :
    command.load? tree order = (configured? tree order command.config).bind fun start =>
      match (start.loadTree tree command.root).result with
      | .error _ => none
      | .ok _ => some (start.loadTree tree command.root).engine := by
  unfold load? configured?
  cases command.config with
  | none => rfl
  | some path =>
      cases read : Config.ofFile tree path with
      | error error => simp [read, Except.toOption]
      | ok config =>
          simp only [read, Except.toOption]
          rfl

theorem Settled.configured? {tree : FileTree} {config : Option String}
    (settled : Settled tree config) {order : Config.Order} {start : Engine Empty}
    (configured : configured? tree order config = some start) (other : Config.Order) :
    ∃ twin, configured? tree other config = some twin ∧ start.ReadsAlike twin := by
  cases config with
  | none => exact ⟨start, configured, .refl start⟩
  | some path =>
      rw [Command.configured?] at configured ⊢
      cases read : Config.ofFile tree path with
      | error error =>
          rw [read] at configured
          cases configured
      | ok overrides =>
          rw [read] at configured
          cases configured
          exact ⟨_, rfl, Engine.configure_readsAlike (settled path overrides rfl read) {} order
            other⟩

theorem load?_eq_some_iff {tree : FileTree} {command : Command} {order : Config.Order}
    {engine : Engine Empty} :
    command.load? tree order = some engine ↔
      ∃ start paths, configured? tree order command.config = some start ∧
        tree.walk? command.root = some paths ∧
        engine = (start.loadTree tree command.root).engine := by
  rw [load?_eq, Option.bind_eq_some_iff]
  apply exists_congr
  intro start
  cases walked : tree.walk? command.root with
  | none => simp [Engine.loadTree_of_unwalkable walked]
  | some paths => simp [Engine.loadTree_eq walked, eq_comm]

/-- The line of an identifier, with the name of the file of its first document. -/
def record (documents : List (Document Empty)) (id : String) : String :=
  let first := documents.find? fun document => document.id? = some id
  id ++ "\t" ++ (first.bind Document.filename?).getD "-" ++ "\n"

/-- The entries that assignments lay over a document. -/
def extra (assignments : List (String × String)) : Option (Document Empty) :=
  if assignments.isEmpty then none
  else some (.ofEntries (assignments.map fun (key, value) => (key, .string value)))

theorem runRender_eq (engine : Engine Empty) (id : String)
    (assignments : List (String × String)) :
    runRender engine id assignments =
      match engine.render (.stored id) (extra assignments) with
      | .ok (some document) => printed 0 document.toValue
      | .ok none => failure "The requested document was not found" 404
      | .error error => failure error.message error.statusCode := rfl

theorem render_eq_none_iff {engine : Engine Empty} {id : String}
    {extra : Option (Document Empty)} :
    engine.render (.stored id) extra = .ok none ↔ id ∉ engine.store.ids := by
  have absent : engine.store.start? (.stored id) = none ↔ id ∉ engine.store.ids :=
    Store.get?_eq_none_iff
  have outcome : engine.render (.stored id) extra =
      Call.outcome engine.store ⟨.stored id, extra, []⟩ := rfl
  rw [← absent, outcome]
  exact ⟨Call.start?_eq_none_of_ok, fun missing => Call.outcome_of_missing missing⟩

theorem runRender_of_unlisted {engine : Engine Empty} {id : String}
    (unlisted : id ∉ engine.store.ids) (assignments : List (String × String)) :
    (runRender engine id assignments).Shows 1 notFoundObject := by
  rw [runRender_eq, render_eq_none_iff.mpr unlisted]
  exact failure_shows _ _

theorem runArguments_of_parse? {manual : Manual} {tree : FileTree}
    {arguments : List String} {command : Command} {order : Config.Order}
    (read : parse? arguments = some command) :
    runArguments manual tree arguments order = command.run tree order := by
  unfold parse? at read
  unfold runArguments
  cases parsed : parse arguments with
  | error stop =>
      rw [parsed] at read
      cases read
  | ok found =>
      rw [parsed] at read
      cases read
      rfl

theorem run_list {tree : FileTree} {root : String} {config : Option String}
    {order : Config.Order} {engine : Engine Empty}
    (loaded : (list root config).load? tree order = some engine) :
    (list root config).run tree order = ⟨0, listing engine.store⟩ := by
  rw [run, loaded]

/-- Only the root and the configuration decide what is loaded. -/
theorem run_render {tree : FileTree} {root : String} {config : Option String}
    {order : Config.Order} {engine : Engine Empty}
    (loaded : (list root config).load? tree order = some engine) (id : String)
    (assignments : List (String × String)) :
    (render root id assignments config).run tree order = runRender engine id assignments := by
  have same : (render root id assignments config).load? tree order = some engine := loaded
  rw [run, same]

def reversedOrder : Config.Order := ⟨List.reverse, List.reverse_perm⟩

def typesText : String :=
  "[file-types.md]\ncontent-type = \"text/plain\"\nformat = \"json\"\n" ++
    "[file-types.txt]\ncontent-type = \"text/note\"\n"

def deskTypes : Config :=
  [("md", { contentType := "text/plain", format := .json }),
    ("txt", { contentType := "text/note" })]

/-- The two keys come to one extension. -/
def twiceText : String :=
  "[file-types.md]\ncontent-type = \"text/plain\"\nformat = \"json\"\n" ++
    "[file-types.\".md\"]\ncontent-type = \"text/note\"\n"

def twiceTypes : Config :=
  [("md", { contentType := "text/plain", format := .json }),
    (".md", { contentType := "text/note" })]

def deskTree : FileTree where
  nodes := [(["site"], .directory), (["site", "menu.md"], .file menuText.toUTF8),
    (["site", "page.txt"], .file pageText.toUTF8), (["types.toml"], .file typesText.toUTF8),
    (["twice.toml"], .file twiceText.toUTF8)]
  distinct := by decide

theorem locate?_deskTree :
    deskTree.locate? "site" false = some ["site"] ∧
      deskTree.locate? "site/menu.md" = some ["site", "menu.md"] ∧
      deskTree.locate? "site/page.txt" = some ["site", "page.txt"] ∧
      deskTree.locate? "types.toml" = some ["types.toml"] ∧
      deskTree.locate? "twice.toml" = some ["twice.toml"] := by
  have root : Path.split "site" = ["site"] := by decide +kernel
  have menu : Path.split "site/menu.md" = ["site", "menu.md"] := by decide +kernel
  have page : Path.split "site/page.txt" = ["site", "page.txt"] := by decide +kernel
  have types : Path.split "types.toml" = ["types.toml"] := by decide +kernel
  have twice : Path.split "twice.toml" = ["twice.toml"] := by decide +kernel
  refine ⟨?_, ?_, ?_, ?_, ?_⟩ <;>
    simp [FileTree.locate?, FileTree.start, root, menu, page, types, twice, FileTree.follow,
      FileTree.node?, FileTree.isAlwaysThere, deskTree, List.lookup_cons]

theorem walk?_deskTree :
    deskTree.walk? "site" = some ["site/menu.md", "site/page.txt"] := by
  have sorted : deskTree.filesBelow ["site"] = [["menu.md"], ["page.txt"]] :=
    List.mergeSort_of_pairwise (by decide +kernel)
  rw [FileTree.walk?, locate?_deskTree.1]
  change some ((deskTree.filesBelow ["site"]).map (Path.below "site")) = _
  rw [sorted]
  decide +kernel

theorem readText?_deskTree :
    deskTree.readText? "site/menu.md" = some menuText ∧
      deskTree.readText? "site/page.txt" = some pageText ∧
      deskTree.readText? "types.toml" = some typesText ∧
      deskTree.readText? "twice.toml" = some twiceText := by
  obtain ⟨-, menu, page, types, twice⟩ := locate?_deskTree
  simp only [FileTree.readText?, menu, page, types, twice]
  decide +kernel

theorem config_deskTree :
    Config.ofFile deskTree "types.toml" = .ok deskTypes ∧
      Config.ofFile deskTree "twice.toml" = .ok twiceTypes := by
  obtain ⟨-, -, types, twice⟩ := readText?_deskTree
  have readTypes : (Toml.read? typesText).bind Config.ofTable? = some deskTypes := by
    decide +kernel
  have readTwice : (Toml.read? twiceText).bind Config.ofTable? = some twiceTypes := by
    decide +kernel
  simp only [Config.ofFile, types, twice, Config.ofSource, readTypes, readTwice, and_self]

/-- The engine that a list of overrides makes, with the desk's site in it. -/
def deskEngine (overrides : Config) (order : Config.Order) : Engine Empty :=
  ((Engine.configure {} overrides order).loadTree deskTree "site").engine

def deskDocuments (start : Engine Empty) : List (Document Empty) :=
  [("site/menu.md", menuText), ("site/page.txt", pageText)].filterMap fun file =>
    (start.fileTypes.forPath? file.1).bind fun type =>
      (FileTree.documentOfText file.1 type start.filters file.2).toOption

theorem deskEngine_eq (overrides : Config) (order : Config.Order) :
    deskEngine overrides order =
      { Engine.configure {} overrides order with
        store := Store.empty.addAll
          (deskDocuments (Engine.configure {} overrides order)) } := by
  obtain ⟨menu, page, -⟩ := readText?_deskTree
  rw [deskEngine, Engine.loadTree_eq walk?_deskTree]
  simp only [Engine.document?, List.filterMap_cons, List.filterMap_nil, FileTree.loadFile,
    menu, page, deskDocuments]
  rfl

theorem deskTree_load? {path : String} {overrides : Config}
    (read : Config.ofFile deskTree path = .ok overrides) (order : Config.Order) :
    (list "site" (some path)).load? deskTree order = some (deskEngine overrides order) := by
  refine load?_eq_some_iff.mpr ⟨_, _, ?_, walk?_deskTree, rfl⟩
  change (Config.ofFile deskTree path).toOption.map _ = _
  rw [read]
  rfl

/-- Where the configuration is ambiguous, one order may list what the other does not
find. -/
theorem deskTree_ambiguous :
    runArguments (fun _ => "") deskTree ["list", "site", "--config", "twice.toml"]
        reversedOrder =
      ⟨0, "menu\tsite/menu.md\nsite/page.txt\tsite/page.txt\n"⟩ ∧
    (runArguments (fun _ => "") deskTree
      ["render", "site", "menu", "--config", "twice.toml"]).Shows 1 notFoundObject := by
  have loaded := deskTree_load? config_deskTree.2
  have readList : parse? ["list", "site", "--config", "twice.toml"] =
      some (list "site" (some "twice.toml")) := by decide +kernel
  have readRender : parse? ["render", "site", "menu", "--config", "twice.toml"] =
      some (render "site" "menu" [] (some "twice.toml")) := by decide +kernel
  have listed : listing (deskEngine twiceTypes reversedOrder).store =
      "menu\tsite/menu.md\nsite/page.txt\tsite/page.txt\n" := by
    rw [deskEngine_eq]
    decide +kernel
  have unlisted : "menu" ∉ (deskEngine twiceTypes .written).store.ids := by
    rw [deskEngine_eq]
    decide +kernel
  constructor
  · rw [runArguments_of_parse? readList, run_list (loaded reversedOrder), listed]
  · rw [runArguments_of_parse? readRender, run_render (loaded .written)]
    exact runRender_of_unlisted unlisted []

end Command

end Compositor
