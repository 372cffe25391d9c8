import Compositor.Proofs.Concrete
import Compositor.Proofs.JsonText
import Compositor.Proofs.Overlay
import Compositor.Proofs.ValueParts

namespace Compositor

variable {ρ : Type}

namespace Value

theorem concrete_of_parts {value : Value ρ}
    (none : ∀ waiting, .deferred waiting ∉ value.parts) : value.Concrete := by
  induction value using nested_induction with
  | null => exact .null
  | bool value => exact .bool value
  | int value => exact .int value
  | float value => exact .float value
  | string text => exact .string text
  | list items induction =>
      exact .list fun item member => induction item member fun waiting inside =>
        none waiting (mem_parts_item member inside)
  | map entries induction =>
      exact .map fun entry member => induction entry member fun waiting inside =>
        none waiting (mem_parts_entry member inside)
  | deferred value => exact absurd (self_mem_parts _) (none value)

end Value

namespace Json

/-! What is refused. -/

section

variable [Extension ρ]

/-- The result is an error that names the deferred value, and none without one. -/
def Refuses {α : Type} (waiting : Option (Deferred ρ)) (result : Except Unresolved α) : Prop :=
  match waiting with
  | none => ∃ written, result = .ok written
  | some value => result = .error ⟨value.renderer.name⟩

theorem Refuses.map {α β : Type} {waiting : Option (Deferred ρ)} {result : Except Unresolved α}
    (refuses : Refuses waiting result) (change : α → β) :
    Refuses waiting (result >>= fun written => pure (change written)) := by
  cases waiting with
  | none =>
      obtain ⟨written, rfl⟩ := refuses
      exact ⟨change written, rfl⟩
  | some value =>
      obtain rfl := refuses
      rfl

theorem mapM_refuses {α β : Type} {piece : α → Except Unresolved β} {parts : α → List (Value ρ)}
    {values : List α}
    (each : ∀ value ∈ values, Refuses ((parts value).findSome? Value.deferred?) (piece value)) :
    Refuses ((values.flatMap parts).findSome? Value.deferred?) (values.mapM piece) := by
  induction values with
  | nil => exact ⟨[], rfl⟩
  | cons value values induction =>
      obtain ⟨first, others⟩ := List.forall_mem_cons.mp each
      rw [List.flatMap_cons, List.findSome?_append, List.mapM_cons]
      cases waiting : (parts value).findSome? Value.deferred? with
      | none =>
          rw [waiting] at first
          obtain ⟨written, ok⟩ := first
          rw [ok]
          exact (induction others).map (written :: ·)
      | some deferred =>
          rw [waiting] at first
          rw [first]
          rfl

theorem tokens_refuses (value : Value ρ) :
    Refuses (value.parts.findSome? Value.deferred?) (tokens value) := by
  induction value using Value.nested_induction with
  | null => exact ⟨_, rfl⟩
  | bool value => exact ⟨_, rfl⟩
  | int value => exact ⟨_, rfl⟩
  | float value => exact ⟨_, rfl⟩
  | string text => exact ⟨_, rfl⟩
  | list items induction =>
      rw [Value.parts, Value.itemParts_eq, List.findSome?_cons, tokens, itemTokens_eq_mapM]
      exact (mapM_refuses induction).map _
  | map entries induction =>
      rw [Value.parts, Value.entryParts_eq, List.findSome?_cons, tokens, entryTokens_eq_mapM]
      have each : ∀ entry ∈ entries, Refuses (entry.2.parts.findSome? Value.deferred?)
          (entryPiece entry) := fun entry member => (induction entry member).map _
      exact (mapM_refuses each).map _
  | deferred value => rfl

end

/-! What is read back. -/

/-- JSON has a text for the value. Of its doubles it is assumed that their
texts name them. -/
structure Expressible (value : Value ρ) : Prop where
  concrete : ∀ waiting, .deferred waiting ∉ value.parts
  finite : ∀ x, .float x ∈ value.parts → x.isFinite = true
  named : ∀ x, .float x ∈ value.parts → ReadsBack x
  distinct : ∀ entries : Entries (Value ρ), .map entries ∈ value.parts → entries.keys.Nodup

theorem Expressible.part {outer inner : Value ρ} (expressible : Expressible outer)
    (inside : ∀ part ∈ inner.parts, part ∈ outer.parts) : Expressible inner where
  concrete waiting member := expressible.concrete waiting (inside _ member)
  finite x member := expressible.finite x (inside _ member)
  named x member := expressible.named x (inside _ member)
  distinct entries member := expressible.distinct entries (inside _ member)

namespace State

variable {limit : Nat} {frames : List (Frame ρ)} {token : Token} {next : State ρ}

/-! Right behind an opening bracket a closing one may stand as well; whatever
else is read there is read as anywhere in the list or map. -/

theorem step?_firstItem (step : step? limit (.start (.list [] :: frames)) token = some next) :
    step? limit (.firstItem frames) token = some next := by
  cases token with
  | closeList => cases step
  | _ => exact step

theorem step?_firstKey (step : step? limit (.nextKey [] frames) token = some next) :
    step? limit (.firstKey frames) token = some next := by
  cases token with
  | string key => exact step
  | _ => cases step

theorem foldlM_of_steps {state other final : State ρ}
    (steps : ∀ token next, step? limit state token = some next →
      step? limit other token = some next) (moves : state ≠ final) {written : List Token}
    (run : written.foldlM (step? limit) state = some final) :
    written.foldlM (step? limit) other = some final := by
  cases written with
  | nil => exact absurd (Option.some.inj run) moves
  | cons token written =>
      rw [List.foldlM_cons] at run
      obtain ⟨next, step, run⟩ := Option.bind_eq_some_iff.mp run
      rw [List.foldlM_cons, steps token next step]
      exact run

end State

variable [Extension ρ]

/-- These tokens are written for the value and, where a value may begin, are
read as that value. -/
structure WrittenAs (value : Value ρ) (written : List Token) : Prop where
  tokens_eq : tokens value = .ok written
  legible : Legible written
  reads : ∀ limit (frames : List (Frame ρ)), frames.length + value.depth < limit →
    written.foldlM (State.step? limit) (.start frames) = some (.done value frames)

/-- The key stands before the value with a colon between them. -/
inductive EntryWrittenAs (entry : String × Value ρ) : List Token → Prop
  | intro {written : List Token} (value : WrittenAs entry.2 written) :
      EntryWrittenAs entry (.string entry.1 :: .colon :: written)

theorem EntryWrittenAs.legible {entry : String × Value ρ} {piece : List Token}
    (written : EntryWrittenAs entry piece) : Legible piece := by
  obtain ⟨value⟩ := written
  exact (value.legible.cons rfl).cons rfl

theorem EntryWrittenAs.reads {entry : String × Value ρ} {piece : List Token}
    (written : EntryWrittenAs entry piece) {limit : Nat} {frames : List (Frame ρ)}
    (room : frames.length + 1 + entry.2.depth < limit) (earlier : Entries (Value ρ)) :
    piece.foldlM (State.step? limit) (.nextKey earlier frames) =
      some (.done entry.2 (.map earlier entry.1 :: frames)) := by
  obtain ⟨value⟩ := written
  exact value.reads limit (.map earlier entry.1 :: frames) room

theorem legible_of_forall₂ {α : Type} {writes : α → List Token → Prop}
    (legible : ∀ value piece, writes value piece → Legible piece) {values : List α}
    {pieces : List (List Token)} (each : List.Forall₂ writes values pieces) :
    ∀ piece ∈ pieces, Legible piece := by
  induction each with
  | nil => nofun
  | cons first others induction => exact List.forall_mem_cons.mpr ⟨legible _ _ first, induction⟩

/-! Lists. -/

theorem foldlM_items {limit : Nat} {frames : List (Frame ρ)} {item : Value ρ}
    {items : List (Value ρ)} {piece : List Token} {pieces : List (List Token)}
    (first : WrittenAs item piece) (others : List.Forall₂ WrittenAs items pieces)
    (room : ∀ inner ∈ item :: items, frames.length + 1 + inner.depth < limit)
    (earlier : List (Value ρ)) :
    ([Token.comma].intercalate (piece :: pieces) ++ [Token.closeList]).foldlM
        (State.step? limit) (.start (.list earlier :: frames)) =
      some (.done (.list (earlier.reverse ++ item :: items)) frames) := by
  -- the items read so far grow from one item to the next
  induction others generalizing item piece earlier with
  | nil =>
      rw [List.intercalate_singleton, List.foldlM_append,
        first.reads limit (.list earlier :: frames) (room item List.mem_cons_self)]
      simp [State.step?]
  | cons second others induction =>
      obtain ⟨roomFirst, roomOthers⟩ := List.forall_mem_cons.mp room
      rw [List.intercalate_cons_cons, List.append_assoc, List.append_assoc, List.foldlM_append,
        first.reads limit (.list earlier :: frames) roomFirst]
      refine (induction second roomOthers (item :: earlier)).trans ?_
      rw [List.reverse_cons, List.append_assoc, List.singleton_append]

theorem WrittenAs.list {items : List (Value ρ)}
    (each : ∀ item ∈ items, ∃ written, WrittenAs item written) :
    ∃ written, WrittenAs (.list items) written := by
  obtain ⟨pieces, tokens_eq, written⟩ := mapM_ok WrittenAs fun item member => by
    obtain ⟨written, value⟩ := each item member
    exact ⟨written, value.tokens_eq, value⟩
  refine ⟨.openList :: [Token.comma].intercalate pieces ++ [Token.closeList], ?_, ?_, ?_⟩
  · rw [tokens, itemTokens_eq_mapM, tokens_eq]
    rfl
  · exact (legible_closed (legible_of_forall₂ (fun _ _ => legible) written) rfl).cons rfl
  · intro limit frames room
    have opens : State.step? limit (.start frames) .openList = some (.firstItem frames) :=
      if_pos (by rw [Value.depth] at room; omega)
    rw [List.cons_append, List.foldlM_cons, opens]
    cases written with
    | nil => rfl
    | cons first others =>
        refine State.foldlM_of_steps (fun _ _ => State.step?_firstItem) ?_
          (foldlM_items first others ?_ [])
        · intro same
          cases same
        · intro inner member
          have := Value.depth_item_lt member
          omega

/-! Maps. -/

theorem foldlM_entries {limit : Nat} {frames : List (Frame ρ)} {entry : String × Value ρ}
    {entries : Entries (Value ρ)} {piece : List Token} {pieces : List (List Token)}
    (first : EntryWrittenAs entry piece) (others : List.Forall₂ EntryWrittenAs entries pieces)
    (room : ∀ inner ∈ entry :: entries, frames.length + 1 + inner.2.depth < limit)
    (earlier : Entries (Value ρ)) :
    ([Token.comma].intercalate (piece :: pieces) ++ [Token.closeMap]).foldlM
        (State.step? limit) (.nextKey earlier frames) =
      some (.done (.map (earlier.overlay (entry :: entries))) frames) := by
  induction others generalizing entry piece earlier with
  | nil =>
      rw [List.intercalate_singleton, List.foldlM_append,
        first.reads (room entry List.mem_cons_self) earlier]
      rfl
  | cons second others induction =>
      obtain ⟨roomFirst, roomOthers⟩ := List.forall_mem_cons.mp room
      rw [List.intercalate_cons_cons, List.append_assoc, List.append_assoc, List.foldlM_append,
        first.reads roomFirst earlier]
      exact induction second roomOthers (earlier.insert entry.1 entry.2)

theorem WrittenAs.map {entries : Entries (Value ρ)} (distinct : entries.keys.Nodup)
    (each : ∀ entry ∈ entries, ∃ written, WrittenAs entry.2 written) :
    ∃ written, WrittenAs (.map entries) written := by
  obtain ⟨pieces, tokens_eq, written⟩ := mapM_ok EntryWrittenAs fun entry member => by
    obtain ⟨written, value⟩ := each entry member
    exact ⟨_, entryPiece_ok value.tokens_eq, .intro value⟩
  refine ⟨.openMap :: [Token.comma].intercalate pieces ++ [Token.closeMap], ?_, ?_, ?_⟩
  · rw [tokens, entryTokens_eq_mapM, tokens_eq]
    rfl
  · exact (legible_closed (legible_of_forall₂ (fun _ _ => EntryWrittenAs.legible) written)
      rfl).cons rfl
  · intro limit frames room
    have opens : State.step? limit (.start frames) .openMap = some (.firstKey frames) :=
      if_pos (by rw [Value.depth] at room; omega)
    rw [List.cons_append, List.foldlM_cons, opens]
    cases written with
    | nil => rfl
    | @cons entry piece entries pieces first others =>
        have inOrder : Entries.overlay [] (entry :: entries) = entry :: entries :=
          Entries.overlay_eq_append distinct fun _ _ => List.not_mem_nil
        rw [← inOrder]
        refine State.foldlM_of_steps (fun _ _ => State.step?_firstKey) ?_
          (foldlM_entries first others ?_ [])
        · intro same
          cases same
        · intro inner member
          have := Value.depth_entry_lt member
          omega

/-! All values. -/

theorem isNaN_or_isInf_of_isFinite {x : Float} (finite : x.isFinite = true) :
    (x.isNaN || x.isInf) = false := by
  change (x.toModel.unpack.isNaN || x.toModel.unpack.isInf) = false
  change x.toModel.unpack.isFinite = true at finite
  cases unpacked : x.toModel.unpack <;> rw [unpacked] at finite <;> trivial

theorem Expressible.written {value : Value ρ} (expressible : Expressible value) :
    ∃ written, WrittenAs value written := by
  induction value using Value.nested_induction with
  | null => exact ⟨_, rfl, legible_singleton rfl, fun _ _ _ => rfl⟩
  | bool value => exact ⟨_, rfl, legible_singleton rfl, fun _ _ _ => rfl⟩
  | int value => exact ⟨_, rfl, legible_number (numberToken?_int value), fun _ _ _ => rfl⟩
  | float x =>
      have self : .float x ∈ (Value.float x : Value ρ).parts := Value.self_mem_parts _
      refine ⟨[.float x], ?_, legible_number (expressible.named x self), fun _ _ _ => rfl⟩
      rw [tokens, isNaN_or_isInf_of_isFinite (expressible.finite x self)]
      rfl
  | string text => exact ⟨_, rfl, legible_singleton rfl, fun _ _ _ => rfl⟩
  | list items induction =>
      exact WrittenAs.list fun item member => induction item member
        (expressible.part fun _ => Value.mem_parts_item member)
  | map entries induction =>
      exact WrittenAs.map (expressible.distinct entries (Value.self_mem_parts _))
        fun entry member => induction entry member
          (expressible.part fun _ => Value.mem_parts_entry member)
  | deferred value => exact absurd (Value.self_mem_parts _) (expressible.concrete value)

theorem Expressible.read?_write {value : Value ρ} (expressible : Expressible value)
    (nested : value.depth < 128) :
    ∃ text, write value = .ok text ∧ (read? text : Option (Value ρ)) = some value := by
  obtain ⟨written, tokens_eq, legible, reads⟩ := expressible.written
  refine ⟨compactText written, by rw [write, tokens_eq]; rfl, ?_⟩
  have lexed : tokens? (compactText written).toList = some written := by
    have := legible [] fun _ member => by cases member
    simpa [compactText, tokens?] using this
  have read : written.foldlM (State.step? 128) (.start []) = some (.done value []) := by
    apply reads
    rw [List.length_nil]
    omega
  rw [read?, readWithin?, lexed]
  simp only [Option.bind_eq_bind, Option.bind_some, read]
  rfl

/-- Exactly the values with something deferred in them are refused, by the name
of what comes first, and the text of any other is read as that value again. -/
structure Faithful (value : Value ρ) : Prop where
  refused_iff : (∃ error, write value = .error error) ↔
    ∃ waiting, .deferred waiting ∈ value.parts
  names_first : ∀ before waiting after, value.parts = before ++ .deferred waiting :: after →
    (∀ part ∈ before, part.isDeferred = false) →
    write value = .error ⟨waiting.renderer.name⟩
  reads_back : Expressible value → value.depth < 128 →
    ∃ text, write value = .ok text ∧ read? text = some value

theorem write_refuses (value : Value ρ) :
    Refuses (value.parts.findSome? Value.deferred?) (write value) := by
  have refuses := (tokens_refuses value).map compactText
  unfold write
  cases written : tokens value <;> rw [written] at refuses <;> exact refuses

theorem faithful (value : Value ρ) : Faithful value where
  refused_iff := by
    have refuses := write_refuses value
    constructor
    · rintro ⟨error, refused⟩
      by_contra! none
      obtain ⟨written, ok⟩ := write_ok (Value.concrete_of_parts none)
      cases refused.symm.trans ok
    · rintro ⟨waiting, member⟩
      cases first : value.parts.findSome? Value.deferred? with
      | none => cases List.findSome?_eq_none_iff.mp first _ member
      | some value =>
          rw [first] at refuses
          exact ⟨_, refuses⟩
  names_first := by
    intro before waiting after parts earlier
    have none : before.findSome? Value.deferred? = none :=
      List.findSome?_eq_none_iff.mpr fun part member => by
        simpa [Value.isDeferred] using earlier part member
    have refuses := write_refuses value
    rw [parts, List.findSome?_append, none] at refuses
    exact refuses
  reads_back := Expressible.read?_write

/-- Whole doubles among the least and the greatest integer, and keys that are
not in alphabetical order. -/
def ledger : Value Empty :=
  .map [("title", .string "\"net\"\t\u0001é"), ("least", .int Int64.minValue),
    ("amounts", .list [.float 1, .float (-0.0), .float 1e300, .int Int64.maxValue, .list []]),
    ("closed", .map [("by", .null), ("at", .bool false)])]

/-- The doubles of the ledger. -/
theorem mem_parts_ledger {x : Float} (member : .float x ∈ ledger.parts) :
    x = 1 ∨ x = -0.0 ∨ x = 1e300 := by
  simpa [ledger, Value.parts, Value.entryParts, Value.itemParts] using member

theorem ledger_expressible : Expressible ledger where
  concrete := by simp [ledger, Value.parts, Value.entryParts, Value.itemParts]
  finite x member := by
    rcases mem_parts_ledger member with rfl | rfl | rfl <;> decide +kernel
  named x member := by
    rcases mem_parts_ledger member with rfl | rfl | rfl <;> unfold ReadsBack <;> decide +kernel
  distinct := by
    simp [ledger, Value.parts, Value.entryParts, Value.itemParts]

def lineItem : Deferred Empty := ⟨.reference .embed "line", 1⟩

def lineItems : Value Empty := .map [("lines", .list [.deferred lineItem])]

/-- An embedding inside a map, before what the outer list mixes in. -/
def invoice : Value Empty := .list [lineItems, .deferred ⟨.reference .mixin "total", 2⟩]

theorem ledger_reads_back :
    (∃ text, write ledger = .ok text ∧ (read? text : Option (Value Empty)) = some ledger) ∧
      write invoice = .error ⟨"embed"⟩ := by
  have parts : invoice.parts = [invoice, lineItems, .list [.deferred lineItem]] ++
      .deferred lineItem :: [.deferred ⟨.reference .mixin "total", 2⟩] := rfl
  exact ⟨(faithful ledger).reads_back ledger_expressible (by decide),
    (faithful invoice).names_first _ _ _ parts (by decide)⟩

end Json

end Compositor
