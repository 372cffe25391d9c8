import Compositor.Config
import Compositor.Json.Reader
import Compositor.Log
import Compositor.Source
import Compositor.Store

namespace Compositor

/-- Why a content tree or one of its files cannot be loaded. -/
inductive LoadError where
  | walk (path : String)
  | io (path : String)
  | json (path : String)
  | notAnObject (path : String)
  deriving DecidableEq, Repr

namespace LoadError

def path : LoadError → String
  | .walk path => path
  | .io path => path
  | .json path => path
  | .notAnObject path => path

/-- The text up to the cause that the system or the grammar gives. -/
def message : LoadError → String
  | .walk path => "Unable to read content directory " ++ path ++ ": "
  | .io path => "Unable to read content file " ++ path ++ ": "
  | .json path => "Unable to parse JSON document " ++ path ++ ": "
  | .notAnObject path => "JSON document " ++ path ++ " must contain an object"

end LoadError

namespace FileTree

variable {ρ : Type}

def discover (tree : FileTree) (root : String) : Except LoadError (List String) :=
  match tree.walk? root with
  | none => .error (.walk root)
  | some paths => .ok paths

/-- The document in the text of a file, whose own entries win over the content
type and the file name. -/
def documentOfText (path : String) (type : FileType) (filters : Registry ρ)
    (text : String) : Except LoadError (Document ρ) :=
  match type.format with
  | .directives =>
      .ok (filters.parse text type.key (some type.contentType)
        (Document.empty.insert Document.filenameKey (.string path)))
  | .json =>
      match Json.read? text with
      | none => .error (.json path)
      | some (.map entries) =>
          let properties :=
            (Document.empty.insert Document.contentTypeKey (.string type.contentType)).insert
              Document.filenameKey (.string path)
          .ok (properties.overlay (.ofEntries entries))
      | some _ => .error (.notAnObject path)

def loadFile (tree : FileTree) (path : String) (type : FileType)
    (filters : Registry ρ) : Except LoadError (Document ρ) :=
  match tree.readText? path with
  | none => .error (.io path)
  | some text => documentOfText path type filters text

end FileTree

structure FileOutcome (α : Type) where
  path : String
  result : Except LoadError α

structure LoadReport (α : Type) where
  files : List (FileOutcome α) := []
  skipped : List String := []

namespace LoadReport

variable {α : Type}

def failures (report : LoadReport α) : List (String × LoadError) :=
  report.files.filterMap fun outcome =>
    match outcome.result with
    | .ok _ => none
    | .error error => some (outcome.path, error)

def isOk (report : LoadReport α) : Bool :=
  report.failures.isEmpty

def stored (report : LoadReport Added) : Nat :=
  report.files.countP fun outcome =>
    match outcome.result with
    | .ok added => added ≠ .skipped
    | .error _ => false

end LoadReport

namespace FileTree

variable {ρ : Type}

def fileLog (outcome : FileOutcome (Document ρ)) : Log :=
  let reading := Log.info ("Processing content file: " ++ outcome.path)
  match outcome.result with
  | .ok _ => [reading]
  | .error error => [reading, Log.error error.message]

def loadFiles (tree : FileTree) (paths : List String) (types : FileTypes)
    (filters : Registry ρ) : LoadReport (Document ρ) × Log :=
  let files := paths.filterMap fun path =>
    (types.forPath? path).map fun type =>
      { path, result := tree.loadFile path type filters : FileOutcome (Document ρ) }
  let skipped := paths.filter fun path => (types.forPath? path).isNone
  let skipLog := skipped.map fun path =>
    Log.debug ("Skipping file with unknown type: " ++ path)
  ({ files, skipped }, skipLog ++ files.flatMap fileLog)

end FileTree

end Compositor
