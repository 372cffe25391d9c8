import Compositor.Load
import Compositor.Render

namespace Compositor

structure Engine (ρ : Type) where
  filters : Registry ρ := Registry.builtin
  fileTypes : FileTypes := FileTypes.builtin
  store : Store ρ := .empty

namespace Engine

variable {ρ : Type}

def addDocument (engine : Engine ρ) (document : Document ρ) : Engine ρ × Added :=
  let (store, added) := engine.store.add document
  ({ engine with store }, added)

def addText (engine : Engine ρ) (text : String) (extra : Document ρ := .empty) :
    Engine ρ × Added :=
  engine.addDocument (engine.filters.parse text Document.contentKey none extra)

def configure (engine : Engine ρ) (config : Config)
    (order : Config.Order := .written) : Engine ρ :=
  { engine with fileTypes := engine.fileTypes.apply (order.arrange config) }

def clear (engine : Engine ρ) : Engine ρ :=
  { engine with store := .empty }

/-- A load under way: the store so far, the outcomes and the messages. -/
structure Progress (ρ : Type) where
  store : Store ρ
  files : List (FileOutcome Added) := []
  log : Log := []

def shadowedText (id path : String) : String :=
  "Document id \"" ++ id ++ "\" in " ++ path ++
    " is already taken; it will not be reachable by id"

def Progress.advance (progress : Progress ρ) (outcome : FileOutcome (Document ρ)) :
    Progress ρ :=
  match outcome.result with
  | .error error =>
      { progress with files := progress.files ++ [⟨outcome.path, .error error⟩] }
  | .ok document =>
      let (store, added) := progress.store.add document
      let warnings : Log :=
        match added with
        | .shadowed id => [Log.warning (shadowedText id outcome.path)]
        | _ => []
      { store
        files := progress.files ++ [⟨outcome.path, .ok added⟩]
        log := progress.log ++ warnings }

structure Loaded (ρ : Type) where
  engine : Engine ρ
  result : Except LoadError (LoadReport Added)
  log : Log

/-- Adds every file of known type below a root, in the order of the paths. A
file that fails is reported and left out; a root that cannot be walked adds
nothing. -/
def loadTree (engine : Engine ρ) (tree : FileTree) (root : String) : Loaded ρ :=
  match tree.discover root with
  | .error error =>
      { engine, result := .error error, log := [Log.error error.message] }
  | .ok paths =>
      let (report, log) := tree.loadFiles paths engine.fileTypes engine.filters
      let progress := report.files.foldl Progress.advance { store := engine.store }
      { engine := { engine with store := progress.store }
        result := .ok { files := progress.files, skipped := report.skipped }
        log := log ++ progress.log }

def render [Extension ρ] (engine : Engine ρ) (request : Request ρ)
    (extra : Option (Document ρ) := none) :
    Except RenderError (Option (Document ρ)) :=
  engine.store.renderAlone request extra

end Engine

end Compositor
