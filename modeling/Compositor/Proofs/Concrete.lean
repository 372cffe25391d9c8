import Compositor.Json.Reader
import Compositor.Json.Writer
import Compositor.Proofs.FinalValues

namespace Compositor

variable {ρ : Type}

/-- Nothing is deferred, at any depth of lists and maps. -/
inductive Value.Concrete : Value ρ → Prop
  | null : Concrete .null
  | bool (value : Bool) : Concrete (.bool value)
  | int (value : Int64) : Concrete (.int value)
  | float (value : Float) : Concrete (.float value)
  | string (text : String) : Concrete (.string text)
  | list {items : List (Value ρ)} (each : ∀ item ∈ items, Concrete item) :
      Concrete (.list items)
  | map {entries : Entries (Value ρ)} (each : ∀ entry ∈ entries, Concrete entry.2) :
      Concrete (.map entries)

theorem Value.final_concrete : Value.Final (Value.Concrete : Value ρ → Prop) where
  string := .string
  map := fun _ => .map
  deferred := nofun

theorem Document.concrete_toValue_iff {document : Document ρ} :
    document.toValue.Concrete ↔ document.All Value.Concrete := by
  rw [all_iff]
  constructor
  · intro concrete
    cases concrete with
    | map each => exact each
  · exact .map

namespace Json

/-! What is written. -/

section

variable [Extension ρ]

/-- The key of an entry, a colon and the tokens of its value. -/
def entryPiece (entry : String × Value ρ) : Except Unresolved (List Token) := do
  let written ← tokens entry.2
  pure (.string entry.1 :: .colon :: written)

theorem entryPiece_ok {entry : String × Value ρ} {written : List Token}
    (ok : tokens entry.2 = .ok written) :
    entryPiece entry = .ok (.string entry.1 :: .colon :: written) := by
  unfold entryPiece
  rw [ok]
  rfl

theorem itemTokens_eq_mapM (items : List (Value ρ)) : itemTokens items = items.mapM tokens := by
  induction items with
  | nil => rfl
  | cons item items induction => rw [itemTokens, List.mapM_cons, induction]

theorem entryTokens_eq_mapM (entries : Entries (Value ρ)) :
    entryTokens entries = entries.mapM entryPiece := by
  induction entries with
  | nil => rfl
  | cons entry entries induction =>
      rw [entryTokens, List.mapM_cons, induction]
      unfold entryPiece
      cases tokens entry.2 <;> rfl

theorem mapM_ok {α β ε : Type} {piece : α → Except ε β} (holds : α → β → Prop)
    {values : List α} (each : ∀ value ∈ values, ∃ written, piece value = .ok written ∧
      holds value written) :
    ∃ pieces, values.mapM piece = .ok pieces ∧ List.Forall₂ holds values pieces := by
  induction values with
  | nil => exact ⟨[], rfl, .nil⟩
  | cons value values induction =>
      obtain ⟨first, others⟩ := List.forall_mem_cons.mp each
      obtain ⟨written, writtenFirst, holdsFirst⟩ := first
      obtain ⟨pieces, writtenOthers, holdsOthers⟩ := induction others
      refine ⟨written :: pieces, ?_, .cons holdsFirst holdsOthers⟩
      rw [List.mapM_cons, writtenFirst, writtenOthers]
      rfl

theorem tokens_ok {value : Value ρ} (concrete : value.Concrete) :
    ∃ written, tokens value = .ok written := by
  induction concrete with
  | null => exact ⟨_, rfl⟩
  | bool value => exact ⟨_, rfl⟩
  | int value => exact ⟨_, rfl⟩
  | float value => exact ⟨_, rfl⟩
  | string text => exact ⟨_, rfl⟩
  | list _ induction =>
      obtain ⟨pieces, ok, -⟩ := mapM_ok (fun _ _ => True) fun item member => by
        obtain ⟨written, ok⟩ := induction item member
        exact ⟨written, ok, trivial⟩
      exact ⟨_, by rw [tokens, itemTokens_eq_mapM, ok]; rfl⟩
  | map _ induction =>
      obtain ⟨pieces, ok, -⟩ := mapM_ok (fun _ _ => True) fun entry member => by
        obtain ⟨written, ok⟩ := induction entry member
        exact ⟨_, entryPiece_ok ok, trivial⟩
      exact ⟨_, by rw [tokens, entryTokens_eq_mapM, ok]; rfl⟩

theorem write_ok {value : Value ρ} (concrete : value.Concrete) :
    ∃ text, write value = .ok text := by
  obtain ⟨written, ok⟩ := tokens_ok concrete
  exact ⟨compactText written, by rw [write, ok]; rfl⟩

theorem writeIndented_ok {value : Value ρ} (concrete : value.Concrete) :
    ∃ text, writeIndented value = .ok text := by
  obtain ⟨written, ok⟩ := tokens_ok concrete
  exact ⟨String.ofList (indent 0 written), by rw [writeIndented, ok]; rfl⟩

end

/-! What is read. -/

def Frame.Concrete : Frame ρ → Prop
  | .list items => ∀ item ∈ items, item.Concrete
  | .map entries _ => ∀ entry ∈ entries, entry.2.Concrete

def State.Concrete : State ρ → Prop
  | .start frames | .firstItem frames | .firstKey frames =>
      ∀ frame ∈ frames, frame.Concrete
  | .nextKey entries frames | .colon entries _ frames =>
      (∀ entry ∈ entries, entry.2.Concrete) ∧ ∀ frame ∈ frames, frame.Concrete
  | .done value frames => value.Concrete ∧ ∀ frame ∈ frames, frame.Concrete

namespace State

theorem begin?_concrete {limit : Nat} {frames : List (Frame ρ)} {token : Token}
    {next : State ρ} (concrete : ∀ frame ∈ frames, frame.Concrete)
    (begun : begin? limit frames token = some next) : next.Concrete := by
  unfold begin? at begun
  split at begun
  · split at begun <;> cases begun
    exact concrete
  · split at begun <;> cases begun
    exact concrete
  · cases begun
    exact ⟨.null, concrete⟩
  · cases begun
    exact ⟨.bool _, concrete⟩
  · cases begun
    exact ⟨.int _, concrete⟩
  · cases begun
    exact ⟨.float _, concrete⟩
  · cases begun
    exact ⟨.string _, concrete⟩
  · cases begun

theorem step?_concrete {limit : Nat} {state next : State ρ} {token : Token}
    (concrete : state.Concrete) (step : step? limit state token = some next) :
    next.Concrete := by
  unfold step? at step
  split at step
  · exact begin?_concrete concrete step
  · cases step
    exact ⟨.list nofun, concrete⟩
  · refine begin?_concrete ?_ step
    exact List.forall_mem_cons.mpr ⟨nofun, concrete⟩
  · cases step
    exact ⟨.map nofun, concrete⟩
  · cases step
    exact ⟨nofun, concrete⟩
  · cases step
    exact concrete
  · cases step
    exact List.forall_mem_cons.mpr concrete
  · obtain ⟨last, opened⟩ := concrete
    obtain ⟨items, outer⟩ := List.forall_mem_cons.mp opened
    cases step
    exact List.forall_mem_cons.mpr ⟨List.forall_mem_cons.mpr ⟨last, items⟩, outer⟩
  · obtain ⟨last, opened⟩ := concrete
    obtain ⟨items, outer⟩ := List.forall_mem_cons.mp opened
    cases step
    refine ⟨.list ?_, outer⟩
    intro item member
    exact List.forall_mem_cons.mpr ⟨last, items⟩ item (List.mem_reverse.mp member)
  · obtain ⟨last, opened⟩ := concrete
    obtain ⟨entries, outer⟩ := List.forall_mem_cons.mp opened
    cases step
    exact ⟨Entries.forall_mem_insert entries _ last, outer⟩
  · obtain ⟨last, opened⟩ := concrete
    obtain ⟨entries, outer⟩ := List.forall_mem_cons.mp opened
    cases step
    exact ⟨.map (Entries.forall_mem_insert entries _ last), outer⟩
  · cases step

theorem foldlM_step?_concrete {limit : Nat} {tokens : List Token} {state final : State ρ}
    (concrete : state.Concrete)
    (run : tokens.foldlM (step? limit) state = some final) : final.Concrete := by
  induction tokens generalizing state with
  | nil =>
      cases run
      exact concrete
  | cons token rest induction =>
      rw [List.foldlM_cons] at run
      obtain ⟨next, step, run⟩ := Option.bind_eq_some_iff.mp run
      exact induction (step?_concrete concrete step) run

end State

theorem concrete_of_read? {text : String} {value : Value ρ}
    (read : read? text = some value) : value.Concrete := by
  obtain ⟨tokens, -, run⟩ := Option.bind_eq_some_iff.mp read
  obtain ⟨state, steps, result⟩ := Option.bind_eq_some_iff.mp run
  have start : (State.start [] : State ρ).Concrete := List.forall_mem_nil _
  have concrete : state.Concrete := State.foldlM_step?_concrete start steps
  unfold State.result? at result
  split at result <;> cases result
  exact concrete.1

end Json

end Compositor
