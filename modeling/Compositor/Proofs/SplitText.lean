import Mathlib.Data.List.Induction
import Mathlib.Data.List.TakeWhile
import Compositor.Text.Name

namespace Compositor.Text

theorem splitAt_eq_splitOn (separator : Char) (text : List Char) :
    splitAt separator text = List.splitOn separator text := by
  rw [List.splitOn_eq_splitOnP]
  induction text with
  | nil => rfl
  | cons c rest induction =>
      rw [splitAt, List.splitOnP_cons_eq_if_modifyHead, ← induction]
      by_cases separates : c = separator
      · simp [separates]
      · cases pieces : splitAt separator rest with
        | nil => exact absurd pieces (splitAt_ne_nil separator rest)
        | cons piece others => simp [separates]

theorem of_mem_splitAt {separator : Char} {text piece : List Char}
    (member : piece ∈ splitAt separator text) {c : Char} (within : c ∈ piece) :
    c ∈ text ∧ c ≠ separator := by
  induction text generalizing piece with
  | nil =>
      obtain rfl := List.mem_singleton.mp member
      cases within
  | cons first rest induction =>
      rw [splitAt] at member
      split at member
      · rcases List.mem_cons.mp member with rfl | later
        · cases within
        · exact (induction later within).imp_left (List.mem_cons_of_mem first)
      · rename_i kept
        split at member
        · rename_i pieces
          exact absurd pieces (splitAt_ne_nil separator rest)
        · rename_i next others pieces
          rcases List.mem_cons.mp member with rfl | later
          · rcases List.mem_cons.mp within with rfl | inner
            · exact ⟨List.mem_cons_self, kept⟩
            · exact (induction (pieces ▸ List.mem_cons_self) inner).imp_left
                (List.mem_cons_of_mem first)
          · exact (induction (pieces ▸ List.mem_cons_of_mem next later) within).imp_left
              (List.mem_cons_of_mem first)

/-! Names with a separator between them. -/

theorem splitAt_intercalate {separator : Char} {names : List String}
    (nonempty : names ≠ []) (apart : ∀ name ∈ names, separator ∉ name.toList) :
    splitAt separator ([separator].intercalate (names.map String.toList)) =
      names.map String.toList := by
  rw [splitAt_eq_splitOn]
  apply List.splitOn_intercalate
  · simpa using apart
  · simpa using nonempty

theorem intercalate_splitAt (separator : Char) (text : List Char) :
    [separator].intercalate (splitAt separator text) = text := by
  rw [splitAt_eq_splitOn, List.intercalate_splitOn]

theorem forall_mem_intercalate {holds : Char → Prop} {separator : Char}
    (between : holds separator) {names : List String}
    (each : ∀ name ∈ names, ∀ c ∈ name.toList, holds c) :
    ∀ c ∈ [separator].intercalate (names.map String.toList), holds c := by
  induction names with
  | nil => exact List.forall_mem_nil _
  | cons name rest induction =>
      obtain ⟨first, others⟩ := List.forall_mem_cons.mp each
      cases rest with
      | nil =>
          rw [List.map_singleton, List.intercalate_singleton]
          exact first
      | cons next rest =>
          rw [List.map_cons, List.map_cons, List.intercalate_cons_cons,
            List.append_assoc]
          refine List.forall_mem_append.mpr ⟨first, ?_⟩
          exact List.forall_mem_cons.mpr ⟨between, induction others⟩

/-! A run of accepted characters with something else behind it. -/

def StopsAt (accepts : Char → Bool) (rest : List Char) : Prop :=
  ∀ c ∈ rest.head?, accepts c = false

section

variable {accepts : Char → Bool} {run rest : List Char}

theorem StopsAt.takeWhile_append (stops : StopsAt accepts rest)
    (each : ∀ c ∈ run, accepts c = true) : (run ++ rest).takeWhile accepts = run := by
  rw [List.takeWhile_append_of_pos each]
  cases rest with
  | nil => exact List.append_nil run
  | cons c rest =>
      rw [List.takeWhile_cons, stops c rfl, if_neg Bool.false_ne_true, List.append_nil]

theorem StopsAt.dropWhile_append (stops : StopsAt accepts rest)
    (each : ∀ c ∈ run, accepts c = true) : (run ++ rest).dropWhile accepts = rest := by
  rw [List.dropWhile_append_of_pos each]
  cases rest with
  | nil => rfl
  | cons c rest => rw [List.dropWhile_cons, stops c rfl, if_neg Bool.false_ne_true]

end

end Compositor.Text
