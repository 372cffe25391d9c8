import Compositor.FileTree
import Compositor.FileType
import Compositor.Toml.Reader

namespace Compositor

inductive ConfigError where
  | unreadable (path : String)
  | invalid
  deriving DecidableEq, Repr

/-- The file types that a configuration sets, under the extensions as written. Their
order is not kept: whoever applies them chooses one. -/
abbrev Config := Entries FileType

namespace Config

/-- An order to apply configurations in. -/
structure Order where
  arrange : Config → Config
  perm : ∀ config, (arrange config).Perm config

def Order.written : Order := ⟨id, fun _ => .rfl⟩

def string? : Toml.Value → Option String
  | .string text => some text
  | _ => none

def isEmptyCollection : Toml.Value → Bool
  | .array items => items.isEmpty
  | .table _ entries => entries.isEmpty
  | _ => false

/-- A format is named by a text, or by the only key of a table, over nothing. -/
def format? : Toml.Value → Option SourceFormat
  | .string name => SourceFormat.ofName? name
  | .table _ [(name, value)] =>
      if isEmptyCollection value then SourceFormat.ofName? name else none
  | _ => none

def fieldOr {α : Type} (read? : Toml.Value → Option α) (default : α) :
    Option Toml.Value → Option α
  | none => some default
  | some value => read? value

/-- A file type is a table with a content type, or an array of key, content type
and format. Other entries and further items have no meaning. -/
def fileType? : Toml.Value → Option FileType
  | .table _ entries => do
      let key ← fieldOr string? Document.contentKey (Entries.get? entries "key")
      let contentType ← (Entries.get? entries "content-type").bind string?
      let format ← fieldOr format? .directives (Entries.get? entries "format")
      pure { key, contentType, format }
  | .array (key :: contentType :: rest) => do
      let key ← string? key
      let contentType ← string? contentType
      let format ← fieldOr format? .directives rest.head?
      pure { key, contentType, format }
  | _ => none

def ofTable? (table : Toml.Table) : Option Config :=
  match table with
  | [] => some []
  | [("file-types", .table _ entries)] =>
      entries.mapM fun entry => (fileType? entry.2).map fun type => (entry.1, type)
  | _ => none

/-- Reads a configuration; it holds nothing but the table `file-types`. -/
def ofSource (source : String) : Except ConfigError Config :=
  match (Toml.read? source).bind ofTable? with
  | none => .error .invalid
  | some config => .ok config

def ofFile (tree : FileTree) (path : String) : Except ConfigError Config :=
  match tree.readText? path with
  | none => .error (.unreadable path)
  | some source => ofSource source

end Config

end Compositor
