import Mathlib.Data.List.Induction
import Compositor.Proofs.Overlay
import Compositor.Store

namespace Compositor

variable {ρ : Type}

namespace Document

theorem id?_ne_empty {document : Document ρ} {id : String}
    (identified : document.id? = some id) : id ≠ "" := by
  obtain ⟨value, -, named⟩ := Option.bind_eq_some_iff.mp identified
  unfold Value.identifier? at named
  split at named
  · cases named
  · rename_i filled
    exact Option.some.inj named ▸ filled

theorem isEmpty_insert (document : Document ρ) (key : String) (value : Value ρ) :
    (document.insert key value).isEmpty = false :=
  List.isEmpty_eq_false_iff.mpr (Entries.insert_ne_nil document.entries key value)

end Document

namespace Store

inductive Operation (ρ : Type) where
  | add (document : Document ρ)
  | clear

def perform (store : Store ρ) : Operation ρ → Store ρ
  | .add document => (store.add document).1
  | .clear => .empty

/-- What operations make of a store that was empty. -/
def after (operations : List (Operation ρ)) : Store ρ :=
  operations.foldl perform .empty

/-- The documents that were given to a store since it was last cleared. -/
def offered (operations : List (Operation ρ)) : List (Document ρ) :=
  operations.foldl
    (fun documents operation =>
      match operation with
      | .add document => documents ++ [document]
      | .clear => [])
    []

/-- The rules by which a document is added. -/
inductive Adds (store : Store ρ) (document : Document ρ) : Store ρ × Added → Prop
  | skipped (empty : document.isEmpty = true) : Adds store document (store, .skipped)
  | anonymous (filled : document.isEmpty = false)
      (anonymous : (withDefaultId document).id? = none) :
      Adds store document (store.append (withDefaultId document), .anonymous)
  | shadowed {id : String} (filled : document.isEmpty = false)
      (identified : (withDefaultId document).id? = some id)
      (taken : store.contains id = true) :
      Adds store document (store.append (withDefaultId document), .shadowed id)
  | indexed {id : String} (filled : document.isEmpty = false)
      (identified : (withDefaultId document).id? = some id)
      (free : store.contains id = false) :
      Adds store document
        (store.appendUnder (withDefaultId document) id identified, .indexed id)

theorem adds (store : Store ρ) (document : Document ρ) :
    Adds store document (store.add document) := by
  unfold add
  cases filled : document.isEmpty with
  | true => exact .skipped filled
  | false =>
      rw [if_neg Bool.false_ne_true]
      dsimp only
      split
      · rename_i anonymous
        exact .anonymous filled anonymous
      · rename_i id identified
        cases taken : store.contains id with
        | true => exact .shadowed filled identified taken
        | false => exact .indexed filled identified taken

/-- A document that lacks the key `id` is identified by its file name. -/
theorem id?_withDefaultId (document : Document ρ) :
    (withDefaultId document).id? =
      if document.contains Document.idKey then document.id?
      else document.filename?.filter (· ≠ "") := by
  unfold withDefaultId
  split
  · rfl
  · rename_i lacking
    have absent : document.get? Document.idKey = none :=
      Option.not_isSome_iff_eq_none.mp lacking
    cases document.filename? with
    | none =>
        rw [Document.id?, absent]
        rfl
    | some filename =>
        rw [Document.id?, Document.get?_insert, if_pos rfl]
        change Value.identifier? (.string filename : Value ρ) = _
        by_cases unnamed : filename = "" <;>
          simp [Value.identifier?, Value.text, unnamed, Option.filter]

theorem isEmpty_withDefaultId {document : Document ρ}
    (filled : document.isEmpty = false) : (withDefaultId document).isEmpty = false := by
  unfold withDefaultId
  split
  · exact filled
  · split
    · exact filled
    · exact document.isEmpty_insert _ _

theorem Adds.documents_eq {store : Store ρ} {document : Document ρ}
    {result : Store ρ × Added} (adds : Adds store document result) :
    result.1.documents = store.documents ++
      ([document].filter fun document => !document.isEmpty).map withDefaultId := by
  cases adds with
  | skipped empty => simp [empty]
  | anonymous filled => simp [filled, append]
  | shadowed filled => simp [filled, append]
  | indexed filled => simp [filled, appendUnder]

theorem Adds.added_eq {store : Store ρ} {document : Document ρ}
    {result : Store ρ × Added} (adds : Adds store document result)
    (filled : document.isEmpty = false) :
    result.2 =
      match (withDefaultId document).id? with
      | none => .anonymous
      | some id => if store.contains id then .shadowed id else .indexed id := by
  cases adds with
  | skipped empty => cases filled.symm.trans empty
  | anonymous _ anonymous => rw [anonymous]
  | shadowed _ identified taken => simp [identified, taken]
  | indexed _ identified free => simp [identified, free]

theorem Adds.ne_skipped {store : Store ρ} {document : Document ρ}
    {result : Store ρ × Added} (adds : Adds store document result)
    (filled : document.isEmpty = false) : result.2 ≠ .skipped := by
  cases adds with
  | skipped empty => cases filled.symm.trans empty
  | anonymous => exact nofun
  | shadowed => exact nofun
  | indexed => exact nofun

theorem documents_after (operations : List (Operation ρ)) :
    (after operations).documents =
      ((offered operations).filter fun document => !document.isEmpty).map
        withDefaultId := by
  induction operations using List.reverseRecOn with
  | nil => rfl
  | append_singleton operations operation induction =>
      rw [after, offered, List.foldl_append, List.foldl_append]
      cases operation with
      | clear => rfl
      | add document =>
          change ((after operations).add document).1.documents =
            ((offered operations ++ [document]).filter _).map withDefaultId
          rw [(adds (after operations) document).documents_eq, induction,
            List.filter_append, List.map_append]

/-- The index leads to the first document with an identifier, and its order is
that of the documents. -/
structure Coherent (store : Store ρ) : Prop where
  index_eq : ∀ id, store.index.get? id =
    store.documents.findIdx? fun document => document.id? = some id
  ids_eq : store.ids = (store.documents.filterMap Document.id?).eraseDups
  increasing : (store.index.map Prod.snd).Pairwise (· < ·)
  nonempty : ∀ document ∈ store.documents, document.isEmpty = false

theorem empty_coherent : (empty : Store ρ).Coherent :=
  ⟨fun _ => rfl, rfl, .nil, nofun⟩

theorem Coherent.contains_iff {store : Store ρ} (coherent : store.Coherent)
    (id : String) :
    store.contains id = true ↔
      ∃ document ∈ store.documents, document.id? = some id := by
  unfold contains Entries.contains
  rw [coherent.index_eq, List.findIdx?_isSome]
  simp

theorem Coherent.mem_identifiers_iff {store : Store ρ} (coherent : store.Coherent)
    (id : String) :
    id ∈ store.documents.filterMap Document.id? ↔ store.contains id = true := by
  rw [coherent.contains_iff, List.mem_filterMap]

theorem nonempty_concat {documents : List (Document ρ)}
    (nonempty : ∀ document ∈ documents, document.isEmpty = false)
    {last : Document ρ} (filled : last.isEmpty = false) :
    ∀ document ∈ documents ++ [last], document.isEmpty = false := by
  intro document member
  rcases List.mem_append.mp member with earlier | equal
  · exact nonempty document earlier
  · exact List.mem_singleton.mp equal ▸ filled

theorem Coherent.append {store : Store ρ} (coherent : store.Coherent)
    {document : Document ρ} (filled : document.isEmpty = false)
    (known : ∀ id, document.id? = some id → store.contains id = true) :
    (store.append document).Coherent where
  index_eq := by
    intro id
    change store.index.get? id = _
    rw [coherent.index_eq, Store.append, List.findIdx?_append]
    by_cases identified : document.id? = some id
    · have present := known id identified
      rw [contains, Entries.contains, coherent.index_eq] at present
      obtain ⟨position, found⟩ := Option.isSome_iff_exists.mp present
      rw [found, Option.some_or]
    · simp [identified]
  ids_eq := by
    change store.ids = ((store.documents ++ [document]).filterMap _).eraseDups
    rw [List.filterMap_append, coherent.ids_eq]
    cases identified : document.id? with
    | none => simp [identified]
    | some id =>
        have listed := (coherent.mem_identifiers_iff id).mpr (known id identified)
        rw [List.filterMap_cons_some identified, List.filterMap_nil, eraseDups_concat,
          if_pos listed]
  increasing := coherent.increasing
  nonempty := nonempty_concat coherent.nonempty filled

theorem Coherent.appendUnder {store : Store ρ} (coherent : store.Coherent)
    {document : Document ρ} (filled : document.isEmpty = false) {id : String}
    (identified : document.id? = some id) (free : store.contains id = false) :
    (store.appendUnder document id identified).Coherent := by
  have unplaced : store.index.get? id = none :=
    Option.isNone_iff_eq_none.mp (Option.isSome_eq_false_iff.mp free)
  have absent : id ∉ store.index.keys := Entries.get?_eq_none_iff.mp unplaced
  refine ⟨?index_eq, ?ids_eq, ?increasing, nonempty_concat coherent.nonempty filled⟩
  case index_eq =>
    intro other
    change (store.index.insert id store.documents.length).get? other = _
    rw [Entries.get?_insert, Store.appendUnder, List.findIdx?_append,
      ← coherent.index_eq]
    by_cases same : id = other
    · subst same
      simp [unplaced, identified]
    · simp [same, identified]
  case ids_eq =>
    have unlisted : id ∉ store.documents.filterMap Document.id? := by
      rw [coherent.mem_identifiers_iff, free]
      exact Bool.false_ne_true
    change (store.index.insert id store.documents.length).keys =
      ((store.documents ++ [document]).filterMap _).eraseDups
    rw [Entries.keys_insert, if_neg absent, List.filterMap_append,
      List.filterMap_cons_some identified, List.filterMap_nil, eraseDups_concat,
      if_neg unlisted, ← coherent.ids_eq]
    rfl
  case increasing =>
    -- The new place is the length of the list, and all places before it are in it.
    change ((store.index.insert id store.documents.length).map Prod.snd).Pairwise _
    rw [Entries.insert_of_not_mem absent, List.map_append, List.pairwise_append]
    refine ⟨coherent.increasing, List.pairwise_singleton _ _, ?_⟩
    intro position member last equal
    obtain rfl := List.mem_singleton.mp equal
    obtain ⟨⟨other, place⟩, stored, rfl⟩ := List.mem_map.mp member
    obtain ⟨found, located, -⟩ := store.index_sound other place
      (Entries.get?_of_mem store.index_distinct stored)
    exact (List.getElem?_eq_some_iff.mp located).1

theorem Adds.coherent {store : Store ρ} {document : Document ρ}
    {result : Store ρ × Added} (adds : Adds store document result)
    (coherent : store.Coherent) : result.1.Coherent := by
  cases adds with
  | skipped => exact coherent
  | anonymous filled anonymous =>
      refine coherent.append (isEmpty_withDefaultId filled) ?_
      intro id identified
      rw [anonymous] at identified
      cases identified
  | @shadowed id filled identified taken =>
      refine coherent.append (isEmpty_withDefaultId filled) ?_
      intro other same
      obtain rfl : id = other := Option.some.inj (identified.symm.trans same)
      exact taken
  | indexed filled identified free =>
      exact coherent.appendUnder (isEmpty_withDefaultId filled) identified free

theorem perform_coherent {store : Store ρ} (coherent : store.Coherent)
    (operation : Operation ρ) : (store.perform operation).Coherent := by
  cases operation with
  | add document => exact (store.adds document).coherent coherent
  | clear => exact empty_coherent

theorem after_coherent (operations : List (Operation ρ)) :
    (after operations).Coherent := by
  induction operations using List.reverseRecOn with
  | nil => exact empty_coherent
  | append_singleton operations operation induction =>
      rw [after, List.foldl_append]
      exact perform_coherent induction operation

/-- An identifier leads to the first document that has it. -/
theorem Coherent.get?_eq {store : Store ρ} (coherent : store.Coherent) (id : String) :
    store.get? id =
      store.documents.find? fun document => document.id? = some id := by
  rw [get?, coherent.index_eq, List.find?_eq_bind_findIdx?_getElem?]

theorem Adds.get?_eq {store : Store ρ} {document : Document ρ}
    {result : Store ρ × Added} (adds : Adds store document result)
    (coherent : store.Coherent) {id : String} {found : Document ρ}
    (first : store.get? id = some found) : result.1.get? id = some found := by
  rw [coherent.get?_eq] at first
  rw [(adds.coherent coherent).get?_eq, adds.documents_eq, List.find?_append, first,
    Option.some_or]

theorem get?_after_adds (operations : List (Operation ρ)) {id : String}
    {found : Document ρ} (first : (after operations).get? id = some found)
    (later : List (Document ρ)) :
    (after (operations ++ later.map .add)).get? id = some found := by
  induction later using List.reverseRecOn with
  | nil => simpa using first
  | append_singleton later document induction =>
      rw [List.map_append, ← List.append_assoc, after, List.foldl_append]
      exact (adds _ document).get?_eq (after_coherent _) induction

/-- The list and the index of a store that was given documents since it was
cleared. The places in the index increase, so the identifiers stand in the order
of their first documents. -/
structure KeepsFirst (store : Store ρ) (given : List (Document ρ)) : Prop where
  documents : store.documents =
    (given.filter fun document => !document.isEmpty).map withDefaultId
  nonempty : ∀ document ∈ store.documents, document.isEmpty = false
  entry : ∀ id position, store.index.get? id = some position →
    id ≠ "" ∧ ∃ bound : position < store.documents.length,
      store.documents[position].id? = some id ∧
      ∀ earlier, (before : earlier < position) →
        store.documents[earlier].id? ≠ some id
  indexed : ∀ document ∈ store.documents, ∀ id, document.id? = some id →
    ∃ position, store.index.get? id = some position
  get? : ∀ id, store.get? id =
    store.documents.find? fun document => document.id? = some id
  ids_distinct : store.ids.Nodup
  ids_first : store.ids = (store.documents.filterMap Document.id?).eraseDups
  increasing : (store.index.map Prod.snd).Pairwise (· < ·)

structure Answers (store : Store ρ) (document : Document ρ) (result : Store ρ × Added) :
    Prop where
  skipped : result.2 = .skipped ↔ document.isEmpty = true
  unchanged : document.isEmpty = true → result.1 = store
  identified : (withDefaultId document).id? =
    if document.contains Document.idKey then document.id?
    else document.filename?.filter (· ≠ "")
  anonymous : document.isEmpty = false →
    (result.2 = .anonymous ↔ (withDefaultId document).id? = none)
  shadowed : document.isEmpty = false → ∀ id,
    (result.2 = .shadowed id ↔ (withDefaultId document).id? = some id ∧
      ∃ listed ∈ store.documents, listed.id? = some id)
  indexed : document.isEmpty = false → ∀ id,
    (result.2 = .indexed id ↔ (withDefaultId document).id? = some id ∧
      ¬ ∃ listed ∈ store.documents, listed.id? = some id)
  appended : document.isEmpty = false →
    result.1.documents = store.documents ++ [withDefaultId document]

theorem Coherent.keepsFirst {store : Store ρ} (coherent : store.Coherent)
    {given : List (Document ρ)}
    (documents : store.documents =
      (given.filter fun document => !document.isEmpty).map withDefaultId) :
    store.KeepsFirst given where
  documents := documents
  nonempty := coherent.nonempty
  entry := by
    intro id position placed
    rw [coherent.index_eq, List.findIdx?_eq_some_iff_getElem] at placed
    obtain ⟨bound, named, first⟩ := placed
    have identified : store.documents[position].id? = some id := of_decide_eq_true named
    refine ⟨Document.id?_ne_empty identified, bound, identified, ?_⟩
    intro earlier before same
    exact first earlier before (decide_eq_true same)
  indexed := by
    intro document member id identified
    have contained := (coherent.contains_iff id).mpr ⟨document, member, identified⟩
    exact Option.isSome_iff_exists.mp contained
  get? := coherent.get?_eq
  ids_distinct := store.index_distinct
  ids_first := coherent.ids_eq
  increasing := coherent.increasing

theorem Adds.answers {store : Store ρ} {document : Document ρ}
    {result : Store ρ × Added} (adds : Adds store document result)
    (coherent : store.Coherent) : store.Answers document result := by
  have named := id?_withDefaultId document
  have listed := coherent.contains_iff
  cases adds with
  | skipped empty =>
      refine ⟨?_, ?_, named, ?_, ?_, ?_, ?_⟩ <;> simp [empty]
  | anonymous filled anonymous =>
      refine ⟨?_, ?_, named, ?_, ?_, ?_, ?_⟩ <;> simp [filled, anonymous, append]
  | shadowed filled identified taken =>
      refine ⟨?_, ?_, named, ?_, ?_, ?_, fun _ => rfl⟩ <;> grind
  | indexed filled identified free =>
      refine ⟨?_, ?_, named, ?_, ?_, ?_, fun _ => rfl⟩ <;> grind

/-- Whatever is added and cleared, an identifier leads to the first document that
was added under it since then. -/
theorem after_keepsFirst (operations : List (Operation ρ)) :
    (after operations).KeepsFirst (offered operations) ∧
    (∀ id found, (after operations).get? id = some found →
      ∀ later : List (Document ρ),
        (after (operations ++ later.map .add)).get? id = some found) ∧
    ∀ document,
      (after operations).Answers document ((after operations).add document) := by
  have coherent := after_coherent operations
  refine ⟨coherent.keepsFirst (documents_after operations), ?_, ?_⟩
  · intro id found first later
    exact get?_after_adds operations first later
  · intro document
    exact (adds _ document).answers coherent

end Store

end Compositor
