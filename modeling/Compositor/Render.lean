import Compositor.Render.Error
import Compositor.Store

namespace Compositor

/-- What a supplied renderer does in its scope. It may change the document it renders
in, look into the store, and render what is stored there; an error of that render
is an answer like any other. It ends with a value or an error of its own. -/
inductive Script (ρ : Type) where
  | give (value : Value ρ)
  | fail (error : RenderError)
  | put (context : Document ρ) (next : Script ρ)
  | look (id : String) (next : Option (Document ρ) → Script ρ)
  | render (id : String) (extra : Option (Document ρ))
      (next : Except RenderError (Option (Document ρ)) → Script ρ)

/-- Renderers supplied from outside. One reads the identifiers of the documents
being rendered, the document it renders in and its key there. It renders no document
of its own making: nothing would bound how deep such documents nest. -/
class Extension (ρ : Type) where
  name : ρ → String
  render : ρ → (chain : List String) → (context : Document ρ) → (key : String) → Script ρ

instance : Extension Empty where
  name := nofun
  render := nofun

def Renderer.name {ρ : Type} [Extension ρ] : Renderer ρ → String
  | .reference mode _ => mode.name
  | .template _ => "template"
  | .supplied renderer => Extension.name renderer

/-- Rendering keeps the chain of identifiers of the documents being rendered,
outermost first. It outlives an error. -/
abbrev RenderM := ExceptT RenderError (StateM (List String))

abbrev EvaluateM (ρ : Type) :=
  ExceptT RenderError (StateT (Document ρ) (StateM (List String)))

/-- How a stored document is rendered from within another one. -/
abbrev Nested (ρ : Type) :=
  String → Option (Document ρ) → RenderM (Option (Document ρ))

inductive Request (ρ : Type) where
  | stored (id : String)
  | direct (document : Document ρ)

namespace Render

variable {ρ : Type}

def missingText (id : String) : Value ρ :=
  .string ("No document found with id \"" ++ id ++ "\"")

/-- What a reference stands for: the content of the rendered document, or all
of it if it has none. -/
def contentOrAll (rendered : Document ρ) : Value ρ :=
  rendered.content?.getD rendered.toValue

/-- What a document that is rendered in `context` under `key` sees of it. -/
def visibleContext (context : Document ρ) (key : String) : Document ρ :=
  context.filter fun entry =>
    entry.1 ≠ key && entry.1 ≠ Document.layoutKey && entry.1 ≠ Document.idKey &&
      !entry.2.isDeferred

def nestedRender (nested : Nested ρ) (target : String) (extra : Option (Document ρ)) :
    EvaluateM ρ (Option (Document ρ)) :=
  ExceptT.mk (StateT.lift (nested target extra).run)

def evaluateReference (nested : Nested ρ) (target key : String) :
    Mode → EvaluateM ρ (Value ρ)
  | .mixin => do
      match ← nestedRender nested target none with
      | none => pure (missingText target)
      | some rendered =>
          modify fun context => context.overlay (rendered.erase Document.contentKey)
          pure (contentOrAll rendered)
  | .partialView => do
      let context ← get
      match ← nestedRender nested target (some (visibleContext context key)) with
      | none => pure (missingText target)
      | some rendered => pure (contentOrAll rendered)
  | .embed => do
      match ← nestedRender nested target none with
      | none => pure (missingText target)
      | some rendered => pure (contentOrAll rendered)

/-- The chain is not the script's to change. -/
def runScript (nested : Nested ρ) (store : Store ρ) : Script ρ → EvaluateM ρ (Value ρ)
  | .give value => pure value
  | .fail error => throw error
  | .put context next => do
      set context
      runScript nested store next
  | .look id next => runScript nested store (next (store.get? id))
  | .render id extra next => do
      let result ← ExceptT.lift (StateT.lift (nested id extra).run)
      runScript nested store (next result)

variable [Extension ρ]

def evaluate (nested : Nested ρ) (store : Store ρ) (key : String) :
    Renderer ρ → EvaluateM ρ (Value ρ)
  | .reference mode target => evaluateReference nested target key mode
  | .template template => do
      let context ← get
      pure (.string (template.apply context))
  | .supplied renderer => do
      let context ← get
      let chain ← getThe (List String)
      runScript nested store (Extension.render renderer chain context key)

def evaluateKey (nested : Nested ρ) (store : Store ρ) (layout : Document ρ)
    (key : String) : EvaluateM ρ Unit :=
  match (layout.get? key).bind Value.deferred? with
  | none => pure ()
  | some deferred => do
      let value ← evaluate nested store key deferred.renderer
      modify fun context => context.insert key value

/-- Evaluates everything that `layout` defers, key by key in the order of the
merged document as it was at the start. -/
def resolve (nested : Nested ρ) (store : Store ρ) (merged layout : Document ρ) :
    RenderM (Document ρ) :=
  ExceptT.mk do
    let (result, resolved) ←
      ((merged.keys.forM (evaluateKey nested store layout)).run).run merged
    pure (result.map fun _ => resolved)

/-- Lays a document, less its `layout`, over its layout. -/
def merge (document layout : Document ρ) : Document ρ :=
  layout.overlay (document.erase Document.layoutKey)

/-- Follows the layouts of a document. `remaining` counts the identifiers that
are not in `used`, so a layout that is found when none remains is in use. -/
def applyLayouts (nested : Nested ρ) (store : Store ρ) (remaining : Nat)
    (used : List String) (document : Document ρ) : RenderM (Document ρ) :=
  match document.layout? with
  | none => pure document
  | some id =>
      if id ∈ used then throw (.recursiveLayout id)
      else
        match store.get? id, remaining with
        | none, _ => throw (.layoutNotFound id)
        | some _, 0 => throw (.recursiveLayout id)
        | some layout, remaining + 1 => do
            let merged ← resolve nested store (merge document layout) layout
            applyLayouts nested store remaining (id :: used) merged

/-- The document takes the place of a layout first: what it defers itself is
evaluated with the extra entries in place. -/
def compose (nested : Nested ρ) (store : Store ρ) (start : Document ρ)
    (extra : Option (Document ρ)) : RenderM (Document ρ) := do
  let requested := start.overlay (extra.getD .empty)
  let resolved ← resolve nested store requested start
  applyLayouts nested store store.index.length [] resolved

/-- Runs with an identifier at the end of the chain, and takes it off again
whatever the outcome. -/
def within {α : Type} (id : String) (action : RenderM α) : RenderM α :=
  ExceptT.mk do
    modify (· ++ [id])
    let result ← action.run
    modify List.dropLast
    pure result

def renderDocument (nested : Nested ρ) (store : Store ρ) (start : Document ρ)
    (extra : Option (Document ρ)) : RenderM (Document ρ) :=
  match start.id? with
  | none => compose nested store start extra
  | some id => do
      if id ∈ (← get) then throw (.recursiveReference id)
      within id (compose nested store start extra)

/-- Renders a stored document. `depth` counts the identifiers that are not on
the chain, so a document that is found when none is left is being rendered. -/
def renderStored (store : Store ρ) : Nat → Nested ρ
  | 0, id, _ => if store.contains id then throw (.recursiveReference id) else pure none
  | depth + 1, id, extra =>
      match store.get? id with
      | none => pure none
      | some start => some <$> renderDocument (renderStored store depth) store start extra

end Render

namespace Store

variable {ρ : Type} [Extension ρ]

/-- How documents are rendered from within others, to the depth at which every
identifier is on the chain. -/
def nested (store : Store ρ) : Nested ρ :=
  Render.renderStored store store.index.length

/-- Renders a document with extra entries laid over it; `none` if it is not
stored. -/
def render (store : Store ρ) (request : Request ρ) (extra : Option (Document ρ)) :
    RenderM (Option (Document ρ)) :=
  match request with
  | .stored id => store.nested id extra
  | .direct document => some <$> Render.renderDocument store.nested store document extra

def renderAlone (store : Store ρ) (request : Request ρ)
    (extra : Option (Document ρ)) : Except RenderError (Option (Document ρ)) :=
  ((store.render request extra).run []).1

end Store

end Compositor
