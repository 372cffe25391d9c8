import Compositor.Filter

namespace Compositor

/-- A line `@@ path text`. Without text it opens a block. -/
structure Directive where
  path : KeyPath
  text : Option String
  deriving DecidableEq, Repr

namespace Directive

open Text

def isPathChar (c : Char) : Bool :=
  isNameChar c || c = ':'

def startsBlank : List Char → Bool
  | [] => false
  | c :: _ => isBlank c

/-- Reads what follows the marker: names joined by colons, then the end or a
blank and the text. -/
def ofBody? (body : List Char) : Option Directive :=
  let names := splitAt ':' (body.takeWhile isPathChar)
  let rest := body.dropWhile isPathChar
  if names.all (fun name => !name.isEmpty) && (rest.isEmpty || startsBlank rest) then
    match names with
    | [] => none
    | key :: filters =>
        let text := trimmed rest
        some {
          path := { key := String.ofList key, filters := filters.map String.ofList }
          text := if text.isEmpty then none else some (String.ofList text) }
  else none

/-- Blanks around the line and its parts do not matter, but at least one stands
after the marker. -/
def ofLine? (line : String) : Option Directive :=
  match trimLeft line.toList with
  | '@' :: '@' :: rest => if startsBlank rest then ofBody? (trimmed rest) else none
  | _ => none

end Directive

/-- A line of a document's source, with its filters looked up. -/
inductive Line (ρ : Type) where
  | inline (spec : KeySpec ρ) (text : String)
  | opening (spec : KeySpec ρ)
  | plain (text : String)

/-- A directive with a filter that is not registered is plain text. -/
def Registry.classify {ρ : Type} (registry : Registry ρ) (line : String) : Line ρ :=
  match Directive.ofLine? line with
  | none => .plain line
  | some directive =>
      match registry.resolve? directive.path with
      | none => .plain line
      | some spec =>
          match directive.text with
          | some text => .inline spec text
          | none => .opening spec

theorem Registry.classify_opening {ρ : Type} {registry : Registry ρ} {line : String}
    {path : KeyPath} {spec : KeySpec ρ}
    (read : Directive.ofLine? line = some { path, text := none })
    (known : registry.resolve? path = some spec) : registry.classify line = .opening spec := by
  rw [classify, read]
  dsimp only
  rw [known]

end Compositor
