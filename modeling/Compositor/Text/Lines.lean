namespace Compositor.Text

def extendFirst (c : Char) : List (List Char) → List (List Char)
  | [] => [[c]]
  | line :: lines => (c :: line) :: lines

/-- The lines of a text. A line feed ends a line, together with one carriage
return right before it; what follows the last line feed is a line only if it is
not empty. -/
def splitLines : List Char → List (List Char)
  | [] => []
  | '\n' :: rest => [] :: splitLines rest
  | '\r' :: '\n' :: rest => [] :: splitLines rest
  | c :: rest => extendFirst c (splitLines rest)

def lines (text : String) : List String :=
  (splitLines text.toList).map String.ofList

@[simp] theorem splitLines_nil : splitLines [] = [] := rfl

@[simp] theorem splitLines_newline (rest : List Char) :
    splitLines ('\n' :: rest) = [] :: splitLines rest := rfl

@[simp] theorem splitLines_carriageReturn (rest : List Char) :
    splitLines ('\r' :: '\n' :: rest) = [] :: splitLines rest := rfl

end Compositor.Text
