import Compositor.Store

namespace Compositor

variable {ρ : Type}

/-- A renderer that comes with the library. -/
def Renderer.Builtin : Renderer ρ → Prop
  | .supplied _ => False
  | .reference _ _ | .template _ => True

/-- A renderer whose evaluation leaves the document as it is. -/
def Renderer.LeavesContext : Renderer ρ → Prop
  | .reference .mixin _ | .supplied _ => False
  | .reference .partialView _ | .reference .embed _ | .template _ => True

instance (renderer : Renderer ρ) : Decidable renderer.Builtin :=
  match renderer with
  | .supplied _ => .isFalse id
  | .reference _ _ | .template _ => .isTrue trivial

instance (renderer : Renderer ρ) : Decidable renderer.LeavesContext :=
  match renderer with
  | .reference .mixin _ | .supplied _ => .isFalse id
  | .reference .partialView _ | .reference .embed _ | .template _ => .isTrue trivial

namespace Document

def Defers (document : Document ρ) (key : String) (deferred : Deferred ρ) : Prop :=
  document.get? key = some (.deferred deferred)

def DefersOnly (document : Document ρ) (kind : Renderer ρ → Prop) : Prop :=
  ∀ key deferred, document.Defers key deferred → kind deferred.renderer

theorem deferred?_eq_some {document : Document ρ} {key : String}
    {deferred : Deferred ρ} :
    (document.get? key).bind Value.deferred? = some deferred ↔
      document.Defers key deferred := by
  unfold Defers
  rw [Option.bind_eq_some_iff]
  constructor
  · rintro ⟨value, found, equal⟩
    cases value <;> simp_all [Value.deferred?]
  · intro found
    exact ⟨_, found, rfl⟩

theorem defersOnly_iff {document : Document ρ} {kind : Renderer ρ → Prop} :
    document.DefersOnly kind ↔
      ∀ entry ∈ document.entries, ∀ deferred ∈ entry.2.deferred?,
        kind deferred.renderer := by
  constructor
  · rintro only ⟨key, value⟩ member deferred held
    have found : document.get? key = some value :=
      Entries.get?_of_mem document.distinct member
    exact only key deferred (deferred?_eq_some.mp (by rw [found]; exact held))
  · intro only key deferred defers
    exact only _ (Entries.mem_of_get? defers) deferred rfl

instance (document : Document ρ) (kind : Renderer ρ → Prop)
    [DecidablePred kind] : Decidable (document.DefersOnly kind) :=
  decidable_of_iff' _ defersOnly_iff

end Document

namespace Store

/-- Only documents that an identifier leads to are ever looked up. -/
def DefersOnly (store : Store ρ) (kind : Renderer ρ → Prop) : Prop :=
  ∀ id document, store.get? id = some document → document.DefersOnly kind

theorem mem_documents_of_get? {store : Store ρ} {id : String}
    {document : Document ρ} (found : store.get? id = some document) :
    document ∈ store.documents := by
  obtain ⟨position, -, stored⟩ := Option.bind_eq_some_iff.mp found
  exact List.mem_of_getElem? stored

theorem defersOnly_of_documents {store : Store ρ} {kind : Renderer ρ → Prop}
    (only : ∀ document ∈ store.documents, document.DefersOnly kind) :
    store.DefersOnly kind :=
  fun _ document found => only document (mem_documents_of_get? found)

end Store

end Compositor
