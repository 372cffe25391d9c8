import Compositor.Value.Text
import Compositor.Value.Equality

namespace Compositor

/-- Values under distinct keys, in the order in which the keys arrived. -/
@[ext] structure Document (ρ : Type) where
  entries : Entries (Value ρ)
  distinct : entries.keys.Nodup

namespace Document

variable {ρ : Type}

/-! Reserved keys. -/

def idKey : String := "id"
def filenameKey : String := "filename"
def contentTypeKey : String := "contentType"
def layoutKey : String := "layout"
def contentKey : String := "content"

def empty : Document ρ := ⟨[], List.nodup_nil⟩

instance : Inhabited (Document ρ) := ⟨empty⟩

def size (document : Document ρ) : Nat := document.entries.length

def isEmpty (document : Document ρ) : Bool := document.entries.isEmpty

def keys (document : Document ρ) : List String := document.entries.keys

def get? (document : Document ρ) (key : String) : Option (Value ρ) :=
  document.entries.get? key

def contains (document : Document ρ) (key : String) : Bool :=
  document.entries.contains key

def insert (document : Document ρ) (key : String) (value : Value ρ) : Document ρ where
  entries := document.entries.insert key value
  distinct := Entries.nodup_keys_insert document.distinct key value

def filter (document : Document ρ) (keep : String × Value ρ → Bool) : Document ρ where
  entries := document.entries.filter keep
  distinct := Entries.nodup_keys_filter document.distinct keep

def erase (document : Document ρ) (key : String) : Document ρ where
  entries := document.entries.erase key
  distinct := Entries.nodup_keys_filter document.distinct _

def overlay (lower upper : Document ρ) : Document ρ where
  entries := lower.entries.overlay upper.entries
  distinct := Entries.nodup_keys_overlay lower.distinct upper.entries

/-- Inserts the entries one after the other, so a repeated key keeps its first
place and takes its last value. -/
def ofEntries (entries : Entries (Value ρ)) : Document ρ where
  entries := empty.entries.overlay entries
  distinct := Entries.nodup_keys_overlay empty.distinct entries

def toValue (document : Document ρ) : Value ρ := .map document.entries

def id? (document : Document ρ) : Option String :=
  (document.get? idKey).bind Value.identifier?

def filename? (document : Document ρ) : Option String :=
  (document.get? filenameKey).bind Value.string?

def layout? (document : Document ρ) : Option String :=
  (document.get? layoutKey).bind Value.identifier?

def content? (document : Document ρ) : Option (Value ρ) :=
  document.get? contentKey

def hasDeferred (document : Document ρ) : Bool :=
  document.entries.any fun entry => entry.2.isDeferred

instance [DecidableEq ρ] : BEq (Document ρ) :=
  ⟨fun first second => first.toValue == second.toValue⟩

@[simp] theorem get?_empty (key : String) :
    (empty : Document ρ).get? key = none := rfl

theorem get?_insert (document : Document ρ) (key : String) (value : Value ρ)
    (other : String) :
    (document.insert key value).get? other =
      if key = other then some value else document.get? other :=
  Entries.get?_insert document.entries key value other

theorem keys_insert (document : Document ρ) (key : String) (value : Value ρ) :
    (document.insert key value).keys =
      if key ∈ document.keys then document.keys else document.keys ++ [key] :=
  Entries.keys_insert document.entries key value

theorem nodup_keys (document : Document ρ) : document.keys.Nodup :=
  document.distinct

end Document

/-- Looks up a placeholder's path; only maps can be descended into. -/
def Document.lookup? (document : Document ρ) : List String → Option (Value ρ)
  | [] => none
  | key :: path => (document.get? key).bind fun value => value.descend? path

def Segment.apply (document : Document ρ) : Segment → String
  | .literal text => text
  | .placeholder path =>
      match document.lookup? path with
      | some value => value.text
      | none => ""

/-- Fills the placeholders from a document. What is not found leaves no text. -/
def Template.apply (template : Template) (document : Document ρ) : String :=
  String.join (template.segments.map (Segment.apply document))

end Compositor
