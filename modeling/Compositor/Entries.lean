namespace Compositor

/-- Keyed entries in the order in which their keys first arrived. -/
abbrev Entries (α : Type) := List (String × α)

namespace Entries

variable {α : Type}

def keys (entries : Entries α) : List String :=
  entries.map Prod.fst

def get? : Entries α → String → Option α
  | [], _ => none
  | (name, value) :: rest, key => if name = key then some value else get? rest key

def contains (entries : Entries α) (key : String) : Bool :=
  (entries.get? key).isSome

/-- A present key keeps its place and takes the new value; a new key goes to
the end. -/
def insert : Entries α → String → α → Entries α
  | [], key, value => [(key, value)]
  | (name, old) :: rest, key, value =>
      if name = key then (key, value) :: rest
      else (name, old) :: insert rest key value

def erase (entries : Entries α) (key : String) : Entries α :=
  entries.filter fun entry => entry.1 ≠ key

def overlay (lower upper : Entries α) : Entries α :=
  upper.foldl (fun entries entry => entries.insert entry.1 entry.2) lower

@[simp] theorem keys_nil : keys ([] : Entries α) = [] := rfl

@[simp] theorem keys_cons (entry : String × α) (rest : Entries α) :
    keys (entry :: rest) = entry.1 :: keys rest := rfl

@[simp] theorem get?_nil (key : String) : get? ([] : Entries α) key = none := rfl

theorem get?_cons (name : String) (value : α) (rest : Entries α) (key : String) :
    get? ((name, value) :: rest) key =
      if name = key then some value else get? rest key := rfl

@[simp] theorem overlay_nil (lower : Entries α) : lower.overlay [] = lower := rfl

@[simp] theorem overlay_cons (lower : Entries α) (entry : String × α)
    (rest : Entries α) :
    lower.overlay (entry :: rest) = (lower.insert entry.1 entry.2).overlay rest :=
  rfl

theorem get?_eq_none_iff {entries : Entries α} {key : String} :
    entries.get? key = none ↔ key ∉ entries.keys := by
  induction entries with
  | nil => simp
  | cons entry rest induction =>
      obtain ⟨name, value⟩ := entry
      by_cases same : name = key
      · simp [get?_cons, same]
      · simp [get?_cons, same, induction, Ne.symm same]

theorem mem_keys_iff {entries : Entries α} {key : String} :
    key ∈ entries.keys ↔ ∃ value, entries.get? key = some value := by
  rw [← Option.ne_none_iff_exists', ne_eq, get?_eq_none_iff, Decidable.not_not]

theorem mem_of_get? {entries : Entries α} {key : String} {value : α}
    (found : entries.get? key = some value) : (key, value) ∈ entries := by
  induction entries with
  | nil => simp at found
  | cons entry rest induction =>
      obtain ⟨name, first⟩ := entry
      rw [get?_cons] at found
      split at found
      · rename_i same
        cases found
        simp [same]
      · exact List.mem_cons_of_mem _ (induction found)

theorem get?_of_mem {entries : Entries α} (distinct : entries.keys.Nodup)
    {key : String} {value : α} (member : (key, value) ∈ entries) :
    entries.get? key = some value := by
  induction entries with
  | nil => simp at member
  | cons entry rest induction =>
      obtain ⟨name, first⟩ := entry
      rw [keys_cons, List.nodup_cons] at distinct
      rw [get?_cons]
      rcases List.mem_cons.mp member with same | later
      · simp [Prod.mk.inj same]
      · have other : name ≠ key := by
          rintro rfl
          exact distinct.1 (List.mem_map.mpr ⟨_, later, rfl⟩)
        simpa [other] using induction distinct.2 later

theorem get?_insert (entries : Entries α) (key : String) (value : α)
    (other : String) :
    (entries.insert key value).get? other =
      if key = other then some value else entries.get? other := by
  induction entries with
  | nil => rfl
  | cons entry rest induction =>
      obtain ⟨name, old⟩ := entry
      by_cases same : name = key
      · subst same
        by_cases sought : name = other <;> simp [insert, get?_cons, sought]
      · by_cases sought : key = other
        · subst sought
          simp [insert, get?_cons, same, induction]
        · simp [insert, get?_cons, same, induction, sought]

theorem keys_insert (entries : Entries α) (key : String) (value : α) :
    (entries.insert key value).keys =
      if key ∈ entries.keys then entries.keys else entries.keys ++ [key] := by
  induction entries with
  | nil => simp [insert]
  | cons entry rest induction =>
      obtain ⟨name, old⟩ := entry
      by_cases same : name = key
      · simp [insert, same]
      · by_cases later : key ∈ keys rest <;>
          simp [insert, same, Ne.symm same, induction, later]

theorem nodup_keys_insert {entries : Entries α} (distinct : entries.keys.Nodup)
    (key : String) (value : α) : (entries.insert key value).keys.Nodup := by
  rw [keys_insert]
  split
  · exact distinct
  · rename_i absent
    rw [List.nodup_append]
    refine ⟨distinct, by simp, ?_⟩
    intro name member other added
    rw [List.mem_singleton.mp added]
    rintro rfl
    exact absent member

theorem nodup_keys_filter {entries : Entries α} (distinct : entries.keys.Nodup)
    (keep : String × α → Bool) : (keys (entries.filter keep)).Nodup :=
  distinct.sublist (List.filter_sublist.map Prod.fst)

theorem nodup_keys_overlay {lower : Entries α} (distinct : lower.keys.Nodup)
    (upper : Entries α) : (lower.overlay upper).keys.Nodup := by
  induction upper generalizing lower with
  | nil => exact distinct
  | cons entry rest induction =>
      exact induction (nodup_keys_insert distinct entry.1 entry.2)

end Entries

end Compositor
