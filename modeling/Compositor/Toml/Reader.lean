import Compositor.Toml.Scalar

namespace Compositor.Toml

open Read

/-! Keys and values. -/

def isBareChar (c : Char) : Bool :=
  c.isAlphanum || c = '-' || c = '_'

def simpleKey : Read String := do
  let text ←
    match ← peek? with
    | some '"' => basicString
    | some '\'' => literalString
    | _ => do
        let first ← satisfy isBareChar
        pure (first :: (← takeWhile isBareChar))
  pure (String.ofList text)

def depthLimit : Nat := 80

def keyPieces : Nat → Read (List String)
  | 0 => failure
  | rounds + 1 => do
      space
      let first ← simpleKey
      space
      match ← peek? with
      | some '.' =>
          char '.'
          pure (first :: (← keyPieces rounds))
      | _ => pure [first]

/-- A dotted key: the path to its table and its last name. -/
def key : Read (Path × String) := do
  let pieces ← bounded keyPieces
  if depthLimit ≤ pieces.length then failure
  match pieces.getLast? with
  | some last => pure (pieces.dropLast, last)
  | none => failure

/-- Blanks, line breaks and comments that end with one. -/
def spaceOverLines : Nat → Read Unit
  | 0 => pure ()
  | rounds + 1 => do
      space
      match ← peek? with
      | some '#' =>
          comment
          newline
          spaceOverLines rounds
      | some '\n' | some '\r' =>
          newline
          spaceOverLines rounds
      | _ => pure ()

mutual

def value (rounds depth : Nat) : Read Value :=
  match rounds with
  | 0 => failure
  | rounds + 1 => do
      match ← peek? with
      | some '[' =>
          if depthLimit ≤ depth + 1 then failure
          char '['
          pure (.array (← arrayRest rounds (depth + 1)))
      | some '\x7b' =>
          if depthLimit ≤ depth + 1 then failure
          char '\x7b'
          space
          let pairs ←
            match ← peek? with
            | some '\x7d' => do
                char '\x7d'
                pure []
            | _ => inlineRest rounds (depth + 1)
          match Table.defineAll [] pairs with
          | some table => pure (.table .braces table)
          | none => failure
      | some '"' | some '\'' => .string <$> String.ofList <$> stringValue
      | some 't' => (do word "true"; pure (.boolean true))
      | some 'f' => (do word "false"; pure (.boolean false))
      | _ =>
          .dateTime <$> dateTime <|> .float <$> decimalFloat <|> .float <$> specialFloat <|>
            .integer <$> integer

/-- The rest of an array; a comma may stand after its last item. -/
def arrayRest (rounds depth : Nat) : Read (List Value) :=
  match rounds with
  | 0 => failure
  | rounds + 1 => do
      bounded spaceOverLines
      match ← peek? with
      | some ']' =>
          char ']'
          pure []
      | _ =>
          let item ← value rounds depth
          bounded spaceOverLines
          match ← next with
          | ',' => pure (item :: (← arrayRest rounds depth))
          | ']' => pure [item]
          | _ => failure

/-- The rest of an inline table that is not empty; it stays on one line. -/
def inlineRest (rounds depth : Nat) : Read (List (Path × String × Value)) :=
  match rounds with
  | 0 => failure
  | rounds + 1 => do
      let (path, last) ← key
      char '='
      space
      let item ← value rounds depth
      space
      match ← next with
      | ',' => pure ((path, last, item) :: (← inlineRest rounds depth))
      | '\x7d' => pure [(path, last, item)]
      | _ => failure

end

/-! Statements. -/

/-- A piece of a document: a header with its path, or a pair. -/
inductive Statement where
  | header (path : Path) (key : String)
  | element (path : Path) (key : String)
  | pair (path : Path) (key : String) (value : Value)

def lineEnd : Read Unit := do
  space
  discard (optional? comment)
  if (← get).isEmpty then pure () else newline

def statement : Read Statement := do
  match ← get with
  | '[' :: '[' :: rest =>
      set rest
      let (path, last) ← key
      word "]]"
      pure (.element path last)
  | '[' :: rest =>
      set rest
      let (path, last) ← key
      char ']'
      pure (.header path last)
  | _ =>
      let (path, last) ← key
      char '='
      space
      let read ← bounded fun rounds => value rounds 0
      pure (.pair path last read)

def statements : Nat → Read (List Statement)
  | 0 => failure
  | rounds + 1 => do
      space
      match ← peek? with
      | none => pure []
      | some '#' | some '\n' | some '\r' =>
          lineEnd
          statements rounds
      | some _ =>
          let first ← statement
          lineEnd
          pure (first :: (← statements rounds))

/-! Meaning. -/

/-- The pairs in front of the first header, and the headers with the pairs
under them. -/
def sections : List Statement →
    List (Path × String × Value) × List (Statement × List (Path × String × Value))
  | [] => ([], [])
  | .pair path key value :: rest =>
      ((path, key, value) :: (sections rest).1, (sections rest).2)
  | header :: rest => ([], (header, (sections rest).1) :: (sections rest).2)

def Table.addStatement (root : Table)
    (piece : Statement × List (Path × String × Value)) : Option Table :=
  match piece.1 with
  | .header path key => root.addSection path key piece.2
  | .element path key => root.addElement path key piece.2
  | .pair path key value => root.define path key value

/-- Reads a document; a byte order mark in front is skipped. -/
def read? (source : String) : Option Table := do
  let text :=
    match source.toList with
    | '\uFEFF' :: rest => rest
    | text => text
  let (pieces, _) ← (bounded statements).run text
  let (top, headed) := sections pieces
  headed.foldlM Table.addStatement (← Table.defineAll [] top)

end Compositor.Toml
