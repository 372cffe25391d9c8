import Compositor.Document

namespace Compositor

/-- Documents in the order of their arrival, and for each identifier the place
of the first document that has it. -/
structure Store (ρ : Type) where
  documents : List (Document ρ)
  index : Entries Nat
  index_distinct : index.keys.Nodup
  index_sound : ∀ id position, index.get? id = some position →
    ∃ document, documents[position]? = some document ∧ document.id? = some id

inductive Added where
  | skipped
  | indexed (id : String)
  | shadowed (id : String)
  | anonymous
  deriving DecidableEq, Repr

namespace Store

variable {ρ : Type}

def empty : Store ρ where
  documents := []
  index := []
  index_distinct := List.nodup_nil
  index_sound := nofun

instance : Inhabited (Store ρ) := ⟨empty⟩

def size (store : Store ρ) : Nat := store.documents.length

def isEmpty (store : Store ρ) : Bool := store.documents.isEmpty

def ids (store : Store ρ) : List String := store.index.keys

def contains (store : Store ρ) (id : String) : Bool := store.index.contains id

def get? (store : Store ρ) (id : String) : Option (Document ρ) :=
  (store.index.get? id).bind fun position => store.documents[position]?

theorem index_sound_append (store : Store ρ) (document : Document ρ) (id : String)
    (position : Nat) (placed : store.index.get? id = some position) :
    ∃ found, (store.documents ++ [document])[position]? = some found ∧
      found.id? = some id := by
  obtain ⟨found, located, identified⟩ := store.index_sound id position placed
  exact ⟨found, List.getElem?_append_left
    (List.getElem?_eq_some_iff.mp located).1 ▸ located, identified⟩

def append (store : Store ρ) (document : Document ρ) : Store ρ where
  documents := store.documents ++ [document]
  index := store.index
  index_distinct := store.index_distinct
  index_sound := store.index_sound_append document

/-- Adds a document and makes it the one that its identifier leads to. -/
def appendUnder (store : Store ρ) (document : Document ρ) (id : String)
    (identified : document.id? = some id) : Store ρ where
  documents := store.documents ++ [document]
  index := store.index.insert id store.documents.length
  index_distinct := Entries.nodup_keys_insert store.index_distinct id _
  index_sound := by
    intro other position placed
    rw [Entries.get?_insert] at placed
    split at placed
    · rename_i same
      cases placed
      exact ⟨document, by simp, same ▸ identified⟩
    · exact store.index_sound_append document other position placed

/-- A document without the key `id` takes its file name as identifier. -/
def withDefaultId (document : Document ρ) : Document ρ :=
  if document.contains Document.idKey then document
  else
    match document.filename? with
    | none => document
    | some filename => document.insert Document.idKey (.string filename)

/-- Stores a document unless it is empty. An identifier stays with the first
document that has it. -/
def add (store : Store ρ) (document : Document ρ) : Store ρ × Added :=
  if document.isEmpty then (store, .skipped)
  else
    let document := withDefaultId document
    match identified : document.id? with
    | none => (store.append document, .anonymous)
    | some id =>
        if store.contains id then (store.append document, .shadowed id)
        else (store.appendUnder document id identified, .indexed id)

theorem id?_of_get? {store : Store ρ} {id : String} {document : Document ρ}
    (found : store.get? id = some document) : document.id? = some id := by
  obtain ⟨position, placed, located⟩ := Option.bind_eq_some_iff.mp found
  obtain ⟨other, locatedOther, identified⟩ := store.index_sound id position placed
  rw [located] at locatedOther
  cases locatedOther
  exact identified

theorem get?_isSome (store : Store ρ) (id : String) :
    (store.get? id).isSome = store.contains id := by
  unfold get? contains Entries.contains
  cases placed : store.index.get? id with
  | none => rfl
  | some position =>
      obtain ⟨found, located, _⟩ := store.index_sound id position placed
      simp [located]

end Store

end Compositor
