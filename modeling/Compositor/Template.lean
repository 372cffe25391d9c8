import Compositor.Text.Name

namespace Compositor

inductive Segment where
  | literal (text : String)
  | placeholder (path : List String)
  deriving DecidableEq, Repr

/-- Text with `$key$` and `$outer.inner$` placeholders; `$$` stands for `$`,
and a `$` that opens no placeholder for itself. -/
structure Template where
  segments : List Segment
  deriving DecidableEq, Repr

namespace Template

open Text

/-- One step of reading a source: a character of text or a placeholder. -/
inductive Mark where
  | char (c : Char)
  | placeholder (path : List String)
  deriving DecidableEq, Repr

def isPathChar (c : Char) : Bool :=
  isNameChar c || c = '.'

/-- Reads names joined by points up to the closing `$`. -/
def readPath? (text : List Char) : Option (List String × List Char) :=
  match text.dropWhile isPathChar with
  | '$' :: rest =>
      let names := splitAt '.' (text.takeWhile isPathChar)
      if names.all fun name => !name.isEmpty then
        some (names.map String.ofList, rest)
      else none
  | _ => none

theorem length_lt_of_readPath? {text rest : List Char} {path : List String}
    (read : readPath? text = some (path, rest)) : rest.length < text.length := by
  have shorter := (List.dropWhile_sublist isPathChar (l := text)).length_le
  unfold readPath? at read
  split at read
  · rename_i tail closed
    rw [closed, List.length_cons] at shorter
    dsimp only at read
    split at read
    · cases read
      omega
    · cases read
  · cases read

def scan : List Char → List Mark
  | [] => []
  | '$' :: '$' :: rest => .char '$' :: scan rest
  | '$' :: rest =>
      match read : readPath? rest with
      | some (path, after) =>
          have := length_lt_of_readPath? read
          .placeholder path :: scan after
      | none => .char '$' :: scan rest
  | c :: rest => .char c :: scan rest
termination_by text => text.length

/-- Closes the literal text collected in front of `segments`. -/
def flush (text : List Char) (segments : List Segment) : List Segment :=
  if text.isEmpty then segments else .literal (String.ofList text) :: segments

def gather : List Mark → List Char × List Segment
  | [] => ([], [])
  | .char c :: rest => (c :: (gather rest).1, (gather rest).2)
  | .placeholder path :: rest =>
      ([], .placeholder path :: flush (gather rest).1 (gather rest).2)

def ofMarks (marks : List Mark) : Template :=
  ⟨flush (gather marks).1 (gather marks).2⟩

def compile (source : String) : Template :=
  ofMarks (scan source.toList)

end Template

end Compositor
