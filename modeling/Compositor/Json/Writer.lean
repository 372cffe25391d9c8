import Compositor.Json.Token
import Compositor.Render

namespace Compositor.Json

/-- A deferred value stands where only concrete values can be written. -/
structure Unresolved where
  name : String
  deriving DecidableEq, Repr

def Unresolved.message (error : Unresolved) : String :=
  "unresolved deferred value (" ++ error.name ++ ")"

variable {ρ : Type} [Extension ρ]

mutual

/-- The tokens of a value. A double that is no number is written as null. -/
def tokens : Value ρ → Except Unresolved (List Token)
  | .null => pure [.null]
  | .bool value => pure [.bool value]
  | .int value => pure [.int value]
  | .float value => pure [if value.isNaN || value.isInf then .null else .float value]
  | .string text => pure [.string text]
  | .list items => do
      let items ← itemTokens items
      pure (.openList :: [Token.comma].intercalate items ++ [.closeList])
  | .map entries => do
      let entries ← entryTokens entries
      pure (.openMap :: [Token.comma].intercalate entries ++ [.closeMap])
  | .deferred value => throw ⟨value.renderer.name⟩

def itemTokens : List (Value ρ) → Except Unresolved (List (List Token))
  | [] => pure []
  | item :: items => do
      let first ← tokens item
      let rest ← itemTokens items
      pure (first :: rest)

def entryTokens : List (String × Value ρ) → Except Unresolved (List (List Token))
  | [] => pure []
  | (key, value) :: entries => do
      let first ← tokens value
      let rest ← entryTokens entries
      pure ((.string key :: .colon :: first) :: rest)

end

/-- The text without any space between its tokens. -/
def compactText (tokens : List Token) : String :=
  String.ofList (tokens.flatMap Token.text)

def lineBreak (depth : Nat) : List Char :=
  '\n' :: List.replicate (2 * depth) ' '

/-- The text with each item on a line of its own, two spaces deeper than its
list or map, unless that is empty. -/
def indent : Nat → List Token → List Char
  | _, [] => []
  | depth, .openList :: .closeList :: rest =>
      Token.openList.text ++ Token.closeList.text ++ indent depth rest
  | depth, .openMap :: .closeMap :: rest =>
      Token.openMap.text ++ Token.closeMap.text ++ indent depth rest
  | depth, .openList :: rest =>
      Token.openList.text ++ lineBreak (depth + 1) ++ indent (depth + 1) rest
  | depth, .openMap :: rest =>
      Token.openMap.text ++ lineBreak (depth + 1) ++ indent (depth + 1) rest
  | depth, .closeList :: rest =>
      lineBreak (depth - 1) ++ Token.closeList.text ++ indent (depth - 1) rest
  | depth, .closeMap :: rest =>
      lineBreak (depth - 1) ++ Token.closeMap.text ++ indent (depth - 1) rest
  | depth, .comma :: rest => Token.comma.text ++ lineBreak depth ++ indent depth rest
  | depth, .colon :: rest => Token.colon.text ++ ' ' :: indent depth rest
  | depth, token :: rest => token.text ++ indent depth rest

def write (value : Value ρ) : Except Unresolved String :=
  (tokens value).map compactText

def writeIndented (value : Value ρ) : Except Unresolved String :=
  (tokens value).map fun tokens => String.ofList (indent 0 tokens)

end Compositor.Json
