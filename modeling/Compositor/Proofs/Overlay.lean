import Compositor.Document

namespace Compositor

/-! Lists of keys without repetition, in the order of their first places. -/

theorem eraseDups_of_nodup {keys : List String} (distinct : keys.Nodup) :
    keys.eraseDups = keys := by
  induction keys with
  | nil => rfl
  | cons key rest induction =>
      rw [List.nodup_cons] at distinct
      have kept : (rest.filter fun other => !other == key) = rest := by
        rw [List.filter_eq_self]
        intro other member
        have different : other ≠ key := fun equal =>
          distinct.1 (equal ▸ member)
        simp [different]
      rw [List.eraseDups_cons, kept, induction distinct.2]

theorem eraseDups_filter (keep : String → Bool) :
    (keys : List String) →
      (keys.filter keep).eraseDups = keys.eraseDups.filter keep
  | [] => rfl
  | key :: rest => by
      have shorter := List.length_filter_le (fun other => !other == key) rest
      have inner := eraseDups_filter keep (rest.filter fun other => !other == key)
      rw [List.filter_filter] at inner
      by_cases kept : keep key
      · rw [List.filter_cons_of_pos kept, List.eraseDups_cons,
          List.eraseDups_cons, List.filter_cons_of_pos kept, ← inner,
          List.filter_filter]
        simp only [Bool.and_comm]
      · have dropped : (rest.filter fun other => keep other && !other == key) =
            rest.filter keep := by
          apply List.filter_congr
          intro other _
          by_cases equal : other = key
          · simp [equal, kept]
          · simp [equal]
        rw [List.filter_cons_of_neg kept, List.eraseDups_cons,
          List.filter_cons_of_neg kept, ← inner, dropped]
termination_by keys => keys.length
decreasing_by
  simp only [List.length_cons]
  omega

theorem eraseDups_append_of_nodup {first : List String} (distinct : first.Nodup)
    (second : List String) :
    (first ++ second).eraseDups =
      first ++ second.eraseDups.filter fun key => key ∉ first := by
  have remaining : second.removeAll first =
      second.filter fun key => key ∉ first := by
    simp [List.removeAll]
  rw [List.eraseDups_append, eraseDups_of_nodup distinct, remaining,
    eraseDups_filter]

theorem eraseDups_concat (keys : List String) (key : String) :
    (keys ++ [key]).eraseDups =
      if key ∈ keys then keys.eraseDups else keys.eraseDups ++ [key] := by
  rw [List.eraseDups_append]
  by_cases member : key ∈ keys
  · have removed : [key].removeAll keys = [] := by simp [List.removeAll, member]
    rw [if_pos member, removed]
    exact List.append_nil _
  · have kept : [key].removeAll keys = [key] := by simp [List.removeAll, member]
    rw [if_neg member, kept]
    rfl

namespace Entries

variable {α : Type}

theorem get?_erase (entries : Entries α) (key other : String) :
    (entries.erase key).get? other =
      if key = other then none else entries.get? other := by
  induction entries with
  | nil => simp [erase]
  | cons entry rest induction =>
      obtain ⟨name, value⟩ := entry
      have step : erase ((name, value) :: rest) key =
          if name = key then erase rest key else (name, value) :: erase rest key := by
        by_cases erased : name = key <;> simp [erase, erased]
      rw [step]
      by_cases erased : name = key
      · rw [if_pos erased, induction, get?_cons, erased]
        split <;> rfl
      · rw [if_neg erased, get?_cons, get?_cons, induction]
        by_cases found : name = other
        · have kept : key ≠ other := fun equal => erased (found.trans equal.symm)
          rw [if_pos found, if_pos found, if_neg kept]
        · rw [if_neg found, if_neg found]

theorem get?_filter {entries : Entries α} (distinct : entries.keys.Nodup)
    (keep : String × α → Bool) (key : String) :
    get? (entries.filter keep) key =
      (entries.get? key).filter fun value => keep (key, value) := by
  induction entries with
  | nil => rfl
  | cons entry rest induction =>
      obtain ⟨name, value⟩ := entry
      rw [keys_cons, List.nodup_cons] at distinct
      rw [List.filter_cons, get?_cons]
      by_cases found : name = key
      · subst found
        have absent : get? rest name = none := get?_eq_none_iff.mpr distinct.1
        by_cases kept : keep (name, value) = true
        · simp [kept, get?_cons, Option.filter]
        · simp [kept, induction distinct.2, absent, Option.filter]
      · by_cases kept : keep (name, value) = true
        · simp [kept, get?_cons, found, induction distinct.2]
        · simp [kept, found, induction distinct.2]

theorem keys_erase (entries : Entries α) (key : String) :
    (entries.erase key).keys = entries.keys.filter fun other => other ≠ key := by
  simp [erase, keys, List.filter_map, Function.comp_def]

theorem get?_overlay (lower : Entries α) {upper : Entries α}
    (distinct : upper.keys.Nodup) (key : String) :
    (lower.overlay upper).get? key = (upper.get? key).or (lower.get? key) := by
  induction upper generalizing lower with
  | nil => simp
  | cons entry rest induction =>
      obtain ⟨name, value⟩ := entry
      rw [keys_cons, List.nodup_cons] at distinct
      rw [overlay_cons, induction _ distinct.2, get?_insert, get?_cons]
      by_cases found : name = key
      · subst found
        simp [get?_eq_none_iff.mpr distinct.1]
      · simp [found]

theorem keys_overlay (lower : Entries α) {upper : Entries α}
    (distinct : upper.keys.Nodup) :
    (lower.overlay upper).keys =
      lower.keys ++ upper.keys.filter fun key => key ∉ lower.keys := by
  induction upper generalizing lower with
  | nil => simp
  | cons entry rest induction =>
      obtain ⟨name, value⟩ := entry
      rw [keys_cons, List.nodup_cons] at distinct
      rw [overlay_cons, induction _ distinct.2, keys_insert, keys_cons]
      by_cases present : name ∈ lower.keys
      · simp [present]
      · have unaffected :
            ((keys rest).filter fun key => key ∉ lower.keys ++ [name]) =
              (keys rest).filter fun key => key ∉ lower.keys := by
          apply List.filter_congr
          intro key member
          have different : key ≠ name := fun equal =>
            distinct.1 (equal ▸ member)
          simp [different]
        rw [if_neg present, unaffected, List.filter_cons_of_pos (by simpa using present),
          List.append_assoc, List.singleton_append]

theorem insert_of_not_mem {entries : Entries α} {key : String}
    (absent : key ∉ entries.keys) (value : α) :
    entries.insert key value = entries ++ [(key, value)] := by
  induction entries with
  | nil => rfl
  | cons entry rest induction =>
      obtain ⟨name, first⟩ := entry
      rw [keys_cons, List.mem_cons, not_or] at absent
      rw [insert, if_neg (Ne.symm absent.1), induction absent.2, List.cons_append]

theorem overlay_eq_append {lower upper : Entries α} (distinct : upper.keys.Nodup)
    (apart : ∀ key ∈ upper.keys, key ∉ lower.keys) :
    lower.overlay upper = lower ++ upper := by
  induction upper generalizing lower with
  | nil => exact (List.append_nil lower).symm
  | cons entry rest induction =>
      rw [keys_cons, List.nodup_cons] at distinct
      obtain ⟨new, others⟩ := List.forall_mem_cons.mp apart
      have later : ∀ key ∈ keys rest, key ∉ keys (lower ++ [entry]) := by
        intro key member present
        rw [keys, List.map_append, List.mem_append] at present
        rcases present with below | same
        · exact others key member below
        · exact distinct.1 (List.mem_singleton.mp same ▸ member)
      rw [overlay_cons, insert_of_not_mem new, induction distinct.2 later,
        List.append_assoc, List.singleton_append]

theorem insert_ne_nil (entries : Entries α) (key : String)
    (value : α) : entries.insert key value ≠ [] := by
  cases entries with
  | nil => exact List.cons_ne_nil _ _
  | cons entry rest =>
      unfold insert
      split <;> exact List.cons_ne_nil _ _

theorem forall_mem_insert {holds : α → Prop} {entries : Entries α}
    (each : ∀ entry ∈ entries, holds entry.2) (key : String) {value : α}
    (given : holds value) : ∀ entry ∈ entries.insert key value, holds entry.2 := by
  induction entries with
  | nil => exact List.forall_mem_singleton.mpr given
  | cons entry rest induction =>
      obtain ⟨first, others⟩ := List.forall_mem_cons.mp each
      unfold insert
      split
      · exact List.forall_mem_cons.mpr ⟨given, others⟩
      · exact List.forall_mem_cons.mpr ⟨first, induction others⟩

theorem forall_mem_overlay {holds : α → Prop} {lower : Entries α}
    (below : ∀ entry ∈ lower, holds entry.2) {upper : Entries α}
    (above : ∀ entry ∈ upper, holds entry.2) :
    ∀ entry ∈ lower.overlay upper, holds entry.2 := by
  induction upper generalizing lower with
  | nil => exact below
  | cons entry rest induction =>
      obtain ⟨first, others⟩ := List.forall_mem_cons.mp above
      rw [overlay_cons]
      exact induction (forall_mem_insert below entry.1 first) others

end Entries

namespace Document

variable {ρ : Type}

theorem get?_erase (document : Document ρ) (key other : String) :
    (document.erase key).get? other =
      if key = other then none else document.get? other :=
  Entries.get?_erase document.entries key other

theorem keys_erase (document : Document ρ) (key : String) :
    (document.erase key).keys = document.keys.filter fun other => other ≠ key :=
  Entries.keys_erase document.entries key

theorem get?_overlay (lower upper : Document ρ) (key : String) :
    (lower.overlay upper).get? key = (upper.get? key).or (lower.get? key) :=
  Entries.get?_overlay lower.entries upper.distinct key

theorem keys_overlay (lower upper : Document ρ) :
    (lower.overlay upper).keys =
      lower.keys ++ upper.keys.filter fun key => key ∉ lower.keys :=
  Entries.keys_overlay lower.entries upper.distinct

theorem empty_overlay (upper : Document ρ) : empty.overlay upper = upper := by
  ext1
  exact Entries.overlay_eq_append upper.distinct fun _ _ => List.not_mem_nil

theorem keys_prefix_overlay (lower upper : Document ρ) :
    lower.keys <+: (lower.overlay upper).keys := by
  rw [keys_overlay]
  exact List.prefix_append _ _

theorem keys_subset_overlay (lower upper : Document ρ) :
    lower.keys ⊆ (lower.overlay upper).keys :=
  (lower.keys_prefix_overlay upper).subset

theorem keys_prefix_insert (document : Document ρ) (key : String) (value : Value ρ) :
    document.keys <+: (document.insert key value).keys := by
  rw [keys_insert]
  split
  · exact List.prefix_refl _
  · exact List.prefix_append _ _

theorem mem_keys_iff (document : Document ρ) (key : String) :
    key ∈ document.keys ↔ ∃ value, document.get? key = some value :=
  Entries.mem_keys_iff

theorem keys_insert_of_mem {document : Document ρ} {key : String}
    (member : key ∈ document.keys) (value : Value ρ) :
    (document.insert key value).keys = document.keys := by
  rw [keys_insert, if_pos member]

theorem layout?_insert (document : Document ρ) {key : String}
    (notLayout : key ≠ layoutKey) (value : Value ρ) :
    (document.insert key value).layout? = document.layout? := by
  rw [layout?, layout?, get?_insert, if_neg notLayout]

theorem layout?_erase (document : Document ρ) {key : String}
    (notLayout : key ≠ layoutKey) :
    (document.erase key).layout? = document.layout? := by
  rw [layout?, layout?, get?_erase, if_neg notLayout]

theorem get?_of_overlay_erase {lower upper : Document ρ} {erased key : String}
    {value : Value ρ} (found : (lower.overlay (upper.erase erased)).get? key = some value) :
    upper.get? key = some value ∨ lower.get? key = some value := by
  rw [get?_overlay, Option.or_eq_some_iff, get?_erase] at found
  rcases found with laid | ⟨-, kept⟩
  · split at laid
    · cases laid
    · exact .inl laid
  · exact .inr kept

theorem layout?_overlay_of_get? (lower : Document ρ) {upper : Document ρ}
    (absent : upper.get? layoutKey = none) :
    (lower.overlay upper).layout? = lower.layout? := by
  rw [layout?, layout?, get?_overlay, absent, Option.none_or]

theorem layout?_overlay_of_mem (lower : Document ρ) {upper : Document ρ}
    (held : layoutKey ∈ upper.keys) : (lower.overlay upper).layout? = upper.layout? := by
  obtain ⟨value, found⟩ := (upper.mem_keys_iff layoutKey).mp held
  rw [layout?, layout?, get?_overlay, found, Option.some_or]

theorem layout?_overlay_of_layout? (lower : Document ρ) {upper : Document ρ}
    (names : upper.layout? = none) :
    (lower.overlay upper).layout? = none ∨
      (lower.overlay upper).layout? = lower.layout? := by
  cases found : upper.get? layoutKey with
  | none => exact .inr (lower.layout?_overlay_of_get? found)
  | some value =>
      left
      rw [layout?, found] at names
      rw [layout?, get?_overlay, found]
      exact names

theorem get?_filter (document : Document ρ) (keep : String × Value ρ → Bool)
    (key : String) :
    (document.filter keep).get? key =
      (document.get? key).filter fun value => keep (key, value) :=
  Entries.get?_filter document.distinct keep key

theorem get?_filter_of_dropped {document : Document ρ} {key : String}
    {keep : String × Value ρ → Bool} (dropped : ∀ value, keep (key, value) = false) :
    (document.filter keep).get? key = none := by
  rw [get?_filter, Option.filter_eq_none_iff]
  intro value _ kept
  rw [dropped value] at kept
  cases kept

end Document

end Compositor
