import Compositor.Directive
import Compositor.Text.Lines

namespace Compositor

variable {ρ : Type}

/-- The block that collects plain lines, the latest first. -/
structure Block (ρ : Type) where
  spec : KeySpec ρ
  collected : List String := []

namespace Block

/-- Empty lines in front of the first other line are dropped. -/
def push (block : Block ρ) (line : String) : Block ρ :=
  if block.collected.isEmpty && line.isEmpty then block
  else { block with collected := line :: block.collected }

/-- The collected lines without the empty ones at the end. -/
def lines (block : Block ρ) : List String :=
  (block.collected.dropWhile String.isEmpty).reverse

def close (block : Block ρ) (document : Document ρ) : Document ρ :=
  if block.lines.isEmpty then document
  else block.spec.store document ("\n".intercalate block.lines)

end Block

structure Draft (ρ : Type) where
  document : Document ρ
  block : Block ρ

namespace Draft

/-- An inline directive is stored at once and leaves the block open. -/
def advance (draft : Draft ρ) : Line ρ → Draft ρ
  | .inline spec text => { draft with document := spec.store draft.document text }
  | .opening spec =>
      { document := draft.block.close draft.document, block := { spec } }
  | .plain text => { draft with block := draft.block.push text }

def finish (draft : Draft ρ) : Document ρ :=
  draft.block.close draft.document

end Draft

namespace Registry

/-- The key of the text in front of the first block; `content` stands in for
a path with an unknown filter. -/
def defaultSpec (registry : Registry ρ) (path : String) : KeySpec ρ :=
  (registry.keySpec? path).getD { key := Document.contentKey }

/-- Reads a source into the given properties, which directives may override. -/
def read (registry : Registry ρ) (text : String) (properties : Document ρ)
    (defaultPath : String := Document.contentKey) : Document ρ :=
  let start : Draft ρ :=
    { document := properties, block := { spec := registry.defaultSpec defaultPath } }
  let draft := (Text.lines text).foldl
    (fun draft line => draft.advance (registry.classify line)) start
  draft.finish

/-- Reads a source of a content type; further properties follow the type. -/
def parse (registry : Registry ρ) (text : String)
    (defaultPath : String := Document.contentKey)
    (contentType : Option String := none) (extra : Document ρ := .empty) : Document ρ :=
  let properties : Document ρ :=
    match contentType with
    | none => .empty
    | some contentType => Document.empty.insert Document.contentTypeKey (.string contentType)
  registry.read text (properties.overlay extra) defaultPath

end Registry

end Compositor
