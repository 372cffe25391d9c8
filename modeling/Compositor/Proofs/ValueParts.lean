import Compositor.Value

namespace Compositor

variable {ρ : Type}

namespace Value

mutual

/-- The value and everything in its lists and maps, in document order. -/
def parts : Value ρ → List (Value ρ)
  | .list items => .list items :: itemParts items
  | .map entries => .map entries :: entryParts entries
  | value => [value]

def itemParts : List (Value ρ) → List (Value ρ)
  | [] => []
  | item :: items => item.parts ++ itemParts items

def entryParts : List (String × Value ρ) → List (Value ρ)
  | [] => []
  | (_, value) :: entries => value.parts ++ entryParts entries

end

mutual

/-- How many lists and maps stand around the innermost value, counting the
value itself. -/
def depth : Value ρ → Nat
  | .list items => itemDepth items + 1
  | .map entries => entryDepth entries + 1
  | _ => 0

def itemDepth : List (Value ρ) → Nat
  | [] => 0
  | item :: items => max item.depth (itemDepth items)

def entryDepth : List (String × Value ρ) → Nat
  | [] => 0
  | (_, value) :: entries => max value.depth (entryDepth entries)

end

theorem itemParts_eq (items : List (Value ρ)) : itemParts items = items.flatMap parts := by
  induction items with
  | nil => rfl
  | cons item items induction => rw [itemParts, induction, List.flatMap_cons]

theorem entryParts_eq (entries : Entries (Value ρ)) :
    entryParts entries = entries.flatMap fun entry => entry.2.parts := by
  induction entries with
  | nil => rfl
  | cons entry entries induction => rw [entryParts, induction, List.flatMap_cons]

theorem self_mem_parts (value : Value ρ) : value ∈ value.parts := by
  cases value <;> exact List.mem_cons_self

theorem mem_parts_item {items : List (Value ρ)} {item part : Value ρ} (member : item ∈ items)
    (inside : part ∈ item.parts) : part ∈ (Value.list items).parts := by
  rw [parts, itemParts_eq]
  exact List.mem_cons_of_mem _ (List.mem_flatMap_of_mem member inside)

theorem mem_parts_entry {entries : Entries (Value ρ)} {entry : String × Value ρ}
    {part : Value ρ} (member : entry ∈ entries) (inside : part ∈ entry.2.parts) :
    part ∈ (Value.map entries).parts := by
  rw [parts, entryParts_eq]
  exact List.mem_cons_of_mem _ (List.mem_flatMap_of_mem member inside)

theorem depth_item_lt {items : List (Value ρ)} {item : Value ρ} (member : item ∈ items) :
    item.depth < (Value.list items).depth := by
  rw [depth]
  induction items with
  | nil => cases member
  | cons first items induction =>
      rw [itemDepth]
      rcases List.mem_cons.mp member with rfl | later
      · omega
      · have := induction later
        omega

theorem depth_entry_lt {entries : Entries (Value ρ)} {entry : String × Value ρ}
    (member : entry ∈ entries) : entry.2.depth < (Value.map entries).depth := by
  rw [depth]
  induction entries with
  | nil => cases member
  | cons first entries induction =>
      rw [entryDepth]
      rcases List.mem_cons.mp member with rfl | later
      · omega
      · have := induction later
        omega

/-- Induction into lists and maps. -/
@[elab_as_elim]
theorem nested_induction {motive : Value ρ → Prop} (null : motive .null)
    (bool : ∀ value, motive (.bool value)) (int : ∀ value, motive (.int value))
    (float : ∀ value, motive (.float value)) (string : ∀ text, motive (.string text))
    (list : ∀ items, (∀ item ∈ items, motive item) → motive (.list items))
    (map : ∀ entries, (∀ entry ∈ entries, motive entry.2) → motive (.map entries))
    (deferred : ∀ value, motive (.deferred value)) (value : Value ρ) : motive value := by
  induction deep : value.depth using Nat.strongRecOn generalizing value with
  | ind _ induction =>
      subst deep
      cases value with
      | null => exact null
      | bool value => exact bool value
      | int value => exact int value
      | float value => exact float value
      | string text => exact string text
      | list items =>
          exact list items fun item member => induction _ (depth_item_lt member) item rfl
      | map entries =>
          exact map entries fun entry member => induction _ (depth_entry_lt member) entry.2 rfl
      | deferred value => exact deferred value

end Value

end Compositor
