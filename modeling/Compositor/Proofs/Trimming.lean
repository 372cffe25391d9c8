import Mathlib.Data.List.TakeWhile
import Compositor.Text.Blank

namespace Compositor.Text

/-- There are blanks only, or nothing at all. -/
def Blank (text : List Char) : Prop :=
  ∀ c ∈ text, isBlank c = true

instance (text : List Char) : Decidable (Blank text) :=
  List.decidableBAll _ text

theorem Blank.nil : Blank [] :=
  List.forall_mem_nil _

theorem Blank.singleton {c : Char} (blank : isBlank c = true) : Blank [c] :=
  List.forall_mem_singleton.mpr blank

theorem Blank.append {first second : List Char} (before : Blank first)
    (after : Blank second) : Blank (first ++ second) :=
  List.forall_mem_append.mpr ⟨before, after⟩

theorem trimLeft_blank_append {before : List Char} (blank : Blank before)
    (text : List Char) : trimLeft (before ++ text) = trimLeft text :=
  List.dropWhile_append_of_pos blank

theorem trimRight_eq (text : List Char) :
    trimRight text = (trimLeft text.reverse).reverse := rfl

theorem trimRight_append_blank (text : List Char) {after : List Char}
    (blank : Blank after) : trimRight (text ++ after) = trimRight text := by
  have reversed : Blank after.reverse := by simpa [Blank] using blank
  rw [trimRight_eq, List.reverse_append, trimLeft_blank_append reversed, ← trimRight_eq]

theorem trimRight_append_of_getLast? {text : List Char}
    (ends : ∃ c ∈ text.getLast?, isBlank c = false) (after : List Char) :
    trimRight (text ++ after) = text ++ trimRight after := by
  obtain ⟨c, last, solid⟩ := ends
  obtain ⟨front, rfl⟩ := List.getLast?_eq_some_iff.mp last
  simp only [trimRight, List.reverse_append, List.dropWhile_append]
  split
  · rename_i blank
    simp [solid, List.isEmpty_iff.mp blank]
  · simp

theorem exists_trimLeft (text : List Char) :
    ∃ before, Blank before ∧ before ++ trimLeft text = text :=
  ⟨text.takeWhile isBlank, fun _ => List.mem_takeWhile_imp,
    List.takeWhile_append_dropWhile⟩

theorem exists_trimRight (text : List Char) :
    ∃ after, Blank after ∧ trimRight text ++ after = text := by
  obtain ⟨before, blank, joined⟩ := exists_trimLeft text.reverse
  refine ⟨before.reverse, by simpa [Blank] using blank, ?_⟩
  rw [trimRight_eq, ← List.reverse_append, joined, List.reverse_reverse]

theorem exists_trimmed (text : List Char) :
    ∃ before after, Blank before ∧ Blank after ∧
      before ++ (trimmed text ++ after) = text := by
  obtain ⟨before, blankBefore, front⟩ := exists_trimLeft text
  obtain ⟨after, blankAfter, back⟩ := exists_trimRight (trimLeft text)
  refine ⟨before, after, blankBefore, blankAfter, ?_⟩
  rw [trimmed, back, front]

theorem trimmed_blank_append {before : List Char} (blank : Blank before)
    (text : List Char) : trimmed (before ++ text) = trimmed text := by
  rw [trimmed, trimLeft_blank_append blank, trimmed]

theorem trimmed_append_blank (text : List Char) {after : List Char}
    (blank : Blank after) : trimmed (text ++ after) = trimmed text := by
  rw [trimmed, trimmed, trimLeft, trimLeft, List.dropWhile_append]
  split
  · rename_i empty
    rw [List.dropWhile_eq_nil_iff.mpr blank, List.isEmpty_iff.mp empty]
  · exact trimRight_append_blank _ blank

theorem trimmed_trimRight (text : List Char) :
    trimmed (trimRight text) = trimmed text := by
  obtain ⟨after, blank, joined⟩ := exists_trimRight text
  have whole := trimmed_append_blank (trimRight text) blank
  rwa [joined, eq_comm] at whole

theorem head?_trimRight {text : List Char} {c : Char}
    (first : c ∈ (trimRight text).head?) : c ∈ text.head? := by
  obtain ⟨after, -, joined⟩ := exists_trimRight text
  rw [← joined, List.head?_append, Option.mem_def.mp first]
  rfl

end Compositor.Text
