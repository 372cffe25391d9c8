import Compositor.Document
import Compositor.Numeral

namespace Compositor

/-- A key with the names of the filters that its values go through. -/
structure KeyPath where
  key : String
  filters : List String := []
  deriving DecidableEq, Repr

/-- Reads `key:filter:filter`; any piece may be empty. -/
def KeyPath.ofText (text : String) : KeyPath :=
  match Text.splitAt ':' text.toList with
  | [] => { key := "" }
  | key :: filters =>
      { key := String.ofList key, filters := filters.map String.ofList }

/-- Takes a value, the document that it is about to enter, and its key there. -/
abbrev Filter (ρ : Type) := Value ρ → Document ρ → String → Value ρ

structure KeySpec (ρ : Type) where
  key : String
  filters : List (Filter ρ) := []

variable {ρ : Type}

def KeySpec.apply (spec : KeySpec ρ) (value : Value ρ) (owner : Document ρ) : Value ρ :=
  spec.filters.foldl (fun value filter => filter value owner spec.key) value

def KeySpec.store (spec : KeySpec ρ) (document : Document ρ) (text : String) :
    Document ρ :=
  document.insert spec.key (spec.apply (.string text) document)

abbrev Registry (ρ : Type) := Entries (Filter ρ)

namespace Registry

/-- A path is known only if all its filters are. -/
def resolve? (registry : Registry ρ) (path : KeyPath) : Option (KeySpec ρ) :=
  (path.filters.mapM registry.get?).map fun filters => { key := path.key, filters }

def keySpec? (registry : Registry ρ) (text : String) : Option (KeySpec ρ) :=
  registry.resolve? (.ofText text)

def referenceFilter (mode : Mode) : Filter ρ :=
  fun value _ _ =>
    .deferred { renderer := .reference mode (Text.trim value.text) }

def templateFilter : Filter ρ :=
  fun value _ _ => .deferred { renderer := .template (.compile value.text) }

/-- The filters that read scalars, and those that put work off until a
document is rendered. -/
def builtin : Registry ρ :=
  [("html", fun value _ _ => value),
    ("int", fun value _ _ => Numeral.intValue value.text),
    ("float", fun value _ _ => Numeral.floatValue value.text),
    ("bool", fun value _ _ => .bool (Text.trim value.text == "true")),
    (Mode.mixin.name, referenceFilter .mixin),
    (Mode.partialView.name, referenceFilter .partialView),
    (Mode.embed.name, referenceFilter .embed),
    ("template", templateFilter)]

end Registry

end Compositor
