import Compositor.Load
import Compositor.Proofs.Concrete

namespace Compositor

variable {ρ : Type}

/-- A value that a stored document may hold: a concrete one, or a deferred one
directly under its key. -/
abbrev Value.Storable (value : Value ρ) : Prop :=
  value.Evaluable Value.Concrete

theorem Numeral.intValue_concrete (text : String) :
    (intValue text : Value ρ).Concrete := by
  have fitting (fits : Bool) (whole : Int64) (double : Float) :
      (if fits then .int whole else .float double : Value ρ).Concrete := by
    cases fits
    · exact .float double
    · exact .int whole
  unfold intValue
  split
  · exact .float _
  · split
    · exact fitting _ _ _
    · exact .float _

theorem Numeral.floatValue_concrete (text : String) :
    (floatValue text : Value ρ).Concrete := by
  unfold floatValue
  dsimp only
  split
  · exact .float _
  · split
    · exact .float _
    · split <;> exact .float _

def Filter.GivesStorable (filter : Filter ρ) : Prop :=
  ∀ value owner key, value.Storable → (filter value owner key).Storable

theorem Registry.builtin_givesStorable :
    ∀ entry ∈ (Registry.builtin : Registry ρ), entry.2.GivesStorable := by
  have deferring (renderer : Value ρ → Renderer ρ)
      (builtin : ∀ value, (renderer value).Builtin) :
      Filter.GivesStorable fun value _ _ => .deferred { renderer := renderer value } :=
    fun value _ _ _ => .inr ⟨_, rfl, builtin value⟩
  unfold builtin
  refine List.forall_mem_cons.mpr ⟨fun _ _ _ => id, ?_⟩
  refine List.forall_mem_cons.mpr
    ⟨fun value _ _ _ => .inl (Numeral.intValue_concrete value.text), ?_⟩
  refine List.forall_mem_cons.mpr
    ⟨fun value _ _ _ => .inl (Numeral.floatValue_concrete value.text), ?_⟩
  refine List.forall_mem_cons.mpr ⟨fun _ _ _ _ => .inl (.bool _), ?_⟩
  refine List.forall_mem_cons.mpr ⟨deferring _ fun _ => trivial, ?_⟩
  refine List.forall_mem_cons.mpr ⟨deferring _ fun _ => trivial, ?_⟩
  refine List.forall_mem_cons.mpr ⟨deferring _ fun _ => trivial, ?_⟩
  exact List.forall_mem_singleton.mpr (deferring _ fun _ => trivial)

namespace KeySpec

def GivesStorable (spec : KeySpec ρ) : Prop :=
  ∀ filter ∈ spec.filters, filter.GivesStorable

theorem GivesStorable.apply {spec : KeySpec ρ} (gives : spec.GivesStorable)
    {value : Value ρ} (storable : value.Storable) (owner : Document ρ) :
    (spec.apply value owner).Storable := by
  obtain ⟨key, filters⟩ := spec
  change (filters.foldl (fun value filter => filter value owner key) value).Storable
  change ∀ filter ∈ filters, filter.GivesStorable at gives
  induction filters generalizing value with
  | nil => exact storable
  | cons filter rest induction =>
      obtain ⟨first, others⟩ := List.forall_mem_cons.mp gives
      exact induction (first value owner key storable) others

theorem GivesStorable.store {spec : KeySpec ρ} (gives : spec.GivesStorable)
    {document : Document ρ} (all : document.All Value.Storable) (text : String) :
    (spec.store document text).All Value.Storable :=
  all.insert spec.key (gives.apply (.inl (.string text)) document)

end KeySpec

theorem Block.spec_push (block : Block ρ) (line : String) :
    (block.push line).spec = block.spec := by
  unfold push
  split <;> rfl

theorem Block.close_all {block : Block ρ} (gives : block.spec.GivesStorable)
    {document : Document ρ} (all : document.All Value.Storable) :
    (block.close document).All Value.Storable := by
  unfold close
  split
  · exact all
  · exact gives.store all _

def Line.GivesStorable : Line ρ → Prop
  | .inline spec _ | .opening spec => spec.GivesStorable
  | .plain _ => True

structure Draft.Storable (draft : Draft ρ) : Prop where
  document : draft.document.All Value.Storable
  block : draft.block.spec.GivesStorable

theorem Draft.Storable.advance {draft : Draft ρ} (storable : draft.Storable)
    {line : Line ρ} (gives : line.GivesStorable) : (draft.advance line).Storable := by
  cases line with
  | inline spec text => exact ⟨KeySpec.GivesStorable.store gives storable.document text,
      storable.block⟩
  | opening spec => exact ⟨Block.close_all storable.block storable.document, gives⟩
  | plain text => exact ⟨storable.document, by
      change (draft.block.push text).spec.GivesStorable
      rw [Block.spec_push]
      exact storable.block⟩

theorem forall_mem_of_mapM {α β : Type} {f : α → Option β} {holds : β → Prop}
    (each : ∀ item result, f item = some result → holds result) {items : List α}
    {results : List β} (found : items.mapM f = some results) :
    ∀ result ∈ results, holds result := by
  induction items generalizing results with
  | nil =>
      cases found
      exact List.forall_mem_nil _
  | cons item rest induction =>
      rw [List.mapM_cons] at found
      obtain ⟨first, foundFirst, found⟩ := Option.bind_eq_some_iff.mp found
      obtain ⟨others, foundRest, found⟩ := Option.bind_eq_some_iff.mp found
      cases found
      exact List.forall_mem_cons.mpr ⟨each item first foundFirst, induction foundRest⟩

namespace Registry

variable {registry : Registry ρ} (gives : ∀ entry ∈ registry, entry.2.GivesStorable)
include gives

theorem resolve?_givesStorable {path : KeyPath} {spec : KeySpec ρ}
    (resolved : registry.resolve? path = some spec) : spec.GivesStorable := by
  obtain ⟨filters, found, rfl⟩ := Option.map_eq_some_iff.mp resolved
  refine forall_mem_of_mapM ?_ found
  intro name filter known
  exact gives _ (Entries.mem_of_get? known)

theorem classify_givesStorable (line : String) :
    (registry.classify line).GivesStorable := by
  unfold classify
  split
  · trivial
  · split
    · trivial
    · rename_i spec resolved
      have known := resolve?_givesStorable gives resolved
      split <;> exact known

theorem defaultSpec_givesStorable (path : String) :
    (registry.defaultSpec path).GivesStorable := by
  unfold defaultSpec
  cases resolved : registry.keySpec? path with
  | none => exact List.forall_mem_nil _
  | some spec => exact resolve?_givesStorable gives resolved

theorem read_all (text : String) {properties : Document ρ}
    (all : properties.All Value.Storable) (defaultPath : String) :
    (registry.read text properties defaultPath).All Value.Storable := by
  have advanced (lines : List String) {draft : Draft ρ} (storable : draft.Storable) :
      (lines.foldl (fun draft line => draft.advance (registry.classify line))
        draft).Storable := by
    induction lines generalizing draft with
    | nil => exact storable
    | cons line rest induction =>
        exact induction (storable.advance (classify_givesStorable gives line))
  have start : Draft.Storable
      { document := properties, block := { spec := registry.defaultSpec defaultPath } } :=
    ⟨all, defaultSpec_givesStorable gives defaultPath⟩
  have read := advanced (Text.lines text) start
  exact Block.close_all read.block read.document

theorem parse_all (text defaultPath : String) (contentType : Option String)
    {extra : Document ρ} (all : extra.All Value.Storable) :
    (registry.parse text defaultPath contentType extra).All Value.Storable := by
  unfold parse
  refine read_all gives text (Document.All.overlay ?_ all) defaultPath
  cases contentType with
  | none => exact Document.all_empty
  | some contentType => exact Document.all_empty.insert _ (.inl (.string contentType))

end Registry

theorem Document.ofEntries_all {holds : Value ρ → Prop} {entries : Entries (Value ρ)}
    (each : ∀ entry ∈ entries, holds entry.2) : (ofEntries entries).All holds :=
  all_iff.mpr (Entries.forall_mem_overlay (List.forall_mem_nil _) each)

namespace FileTree

variable {registry : Registry ρ} (gives : ∀ entry ∈ registry, entry.2.GivesStorable)
include gives

theorem documentOfText_all {path : String} {type : FileType} {text : String}
    {document : Document ρ}
    (read : documentOfText path type registry text = .ok document) :
    document.All Value.Storable := by
  unfold documentOfText at read
  have text_storable (text : String) : (.string text : Value ρ).Storable :=
    .inl (.string text)
  split at read
  · cases read
    exact registry.parse_all gives text _ _
      (Document.all_empty.insert _ (text_storable path))
  · split at read
    · cases read
    · rename_i entries parsed
      cases read
      cases Json.concrete_of_read? parsed with
      | map each =>
          refine Document.All.overlay ?_
            (Document.ofEntries_all fun entry member => .inl (each entry member))
          exact (Document.all_empty.insert _ (text_storable type.contentType)).insert _
            (text_storable path)
    · cases read

theorem loadFile_all {tree : FileTree} {path : String} {type : FileType}
    {document : Document ρ} (loaded : tree.loadFile path type registry = .ok document) :
    document.All Value.Storable := by
  unfold loadFile at loaded
  split at loaded
  · cases loaded
  · exact documentOfText_all gives loaded

end FileTree

end Compositor
