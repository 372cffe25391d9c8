import Compositor.Text.Name

namespace Compositor.Path

/-- The pieces between slashes, empty ones included. -/
def split (path : String) : List String :=
  (Text.splitAt '/' path.toList).map String.ofList

def names (path : String) : List String :=
  (split path).filter fun piece => piece ≠ "" && piece ≠ "."

def fileName? (path : String) : Option String :=
  (names path).getLast?.filter (· ≠ "..")

/-- What follows the last point of the file name, unless that point is its
first character. -/
def extension? (path : String) : Option String :=
  (fileName? path).bind fun name =>
    let pieces := Text.splitAt '.' name.toList
    if pieces.length < 2 || (pieces.length = 2 && pieces.head? = some []) then none
    else pieces.getLast?.map String.ofList

/-- Paths are in order name by name; a path comes before those below it. -/
def inOrder : List String → List String → Bool
  | [], _ => true
  | _ :: _, [] => false
  | first :: firsts, second :: seconds =>
      if first = second then inOrder firsts seconds else decide (first < second)

def below (root : String) (names : List String) : String :=
  let rest := "/".intercalate names
  if root.toList.getLast? = some '/' then root ++ rest else root ++ "/" ++ rest

end Compositor.Path
