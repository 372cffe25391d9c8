import Compositor.Document
import Compositor.Path

namespace Compositor

/-- How the text of a file becomes a document. -/
inductive SourceFormat where
  | directives
  | json
  deriving DecidableEq, Repr

def SourceFormat.name : SourceFormat → String
  | .directives => "versatile"
  | .json => "json"

def SourceFormat.ofName? (name : String) : Option SourceFormat :=
  [SourceFormat.directives, .json].find? fun format => format.name = name

/-- What is assumed of files with one extension. -/
structure FileType where
  key : String := Document.contentKey
  contentType : String
  format : SourceFormat := .directives
  deriving DecidableEq, Repr

/-- File types by extension, each with its point. -/
abbrev FileTypes := Entries FileType

namespace FileTypes

def normalize (extension : String) : String :=
  if extension.toList.head? = some '.' then extension else "." ++ extension

def set (types : FileTypes) (extension : String) (type : FileType) : FileTypes :=
  types.insert (normalize extension) type

def find? (types : FileTypes) (extension : String) : Option FileType :=
  types.get? (normalize extension)

def forPath? (types : FileTypes) (path : String) : Option FileType :=
  (Path.extension? path).bind types.find?

def builtin : FileTypes :=
  [(".txt", { contentType := "text/plain" }),
    (".html", { key := "content:html", contentType := "text/html" }),
    (".json", { contentType := "application/json", format := .json })]

/-- Of two overrides that come to one extension the later is kept. -/
def apply (types : FileTypes) (overrides : Entries FileType) : FileTypes :=
  overrides.foldl (fun types override => types.set override.1 override.2) types

end FileTypes

end Compositor
