import Compositor.Entries
import Compositor.Template

namespace Compositor

/-- How a reference takes in the document it names: with its keys, in the
context of the referring document, or on its own. -/
inductive Mode where
  | mixin
  | partialView
  | embed
  deriving DecidableEq, Repr

def Mode.name : Mode → String
  | .mixin => "mixin"
  | .partialView => "partial"
  | .embed => "embed"

/-- A computation that waits for a document to be rendered in. Those of type
`ρ` are supplied by the user of the library. -/
inductive Renderer (ρ : Type) where
  | reference (mode : Mode) (target : String)
  | template (template : Template)
  | supplied (renderer : ρ)
  deriving DecidableEq, Repr

/-- A handle to a renderer, as it stands in a document. Handles with different labels
differ even if their renderers are the same. Who makes handles chooses the labels; the
filters do not tell theirs apart, and give each the label 0. -/
structure Deferred (ρ : Type) where
  renderer : Renderer ρ
  label : Nat := 0
  deriving DecidableEq, Repr

inductive Value (ρ : Type) where
  | null
  | bool (value : Bool)
  | int (value : Int64)
  | float (value : Float)
  | string (text : String)
  | list (items : List (Value ρ))
  | map (entries : List (String × Value ρ))
  | deferred (value : Deferred ρ)

namespace Value

variable {ρ : Type}

instance : Inhabited (Value ρ) := ⟨.null⟩

/-- Stands for text that holds no number. -/
def notANumber : Value ρ := .float (0 / 0)

def isNotANumber : Value ρ → Bool
  | .float value => value.isNaN
  | _ => false

def string? : Value ρ → Option String
  | .string text => some text
  | _ => none

def deferred? : Value ρ → Option (Deferred ρ)
  | .deferred value => some value
  | _ => none

def isDeferred (value : Value ρ) : Bool :=
  value.deferred?.isSome

def descend? (value : Value ρ) : List String → Option (Value ρ)
  | [] => some value
  | key :: path =>
      match value with
      | .map entries => (Entries.get? entries key).bind fun inner => inner.descend? path
      | _ => none

end Value

end Compositor
