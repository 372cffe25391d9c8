import Mathlib.Data.List.Basic
import Compositor.Text.Lines

namespace Compositor.Text

theorem extendFirst_append (c : Char) {lines : List (List Char)} (nonempty : lines ≠ [])
    (more : List (List Char)) :
    extendFirst c (lines ++ more) = extendFirst c lines ++ more := by
  cases lines with
  | nil => exact absurd rfl nonempty
  | cons line rest => rfl

theorem splitLines_cons {c : Char} {rest : List Char} (inside : c ≠ '\n')
    (unpaired : c = '\r' → rest.head? ≠ some '\n') :
    splitLines (c :: rest) = extendFirst c (splitLines rest) := by
  rw [splitLines]
  · exact inside
  · rintro later rfl rfl
    exact unpaired rfl rfl

theorem splitLines_ne_nil {text : List Char} (nonempty : text ≠ []) :
    splitLines text ≠ [] := by
  fun_cases splitLines text with
  | case1 => exact absurd rfl nonempty
  | case2 rest => exact List.cons_ne_nil _ _
  | case3 rest => exact List.cons_ne_nil _ _
  | case4 c rest =>
      cases splitLines rest <;> exact List.cons_ne_nil _ _

/-! Lines that are ended by a line feed, and lines that are not. -/

/-- What follows an ended line is split on its own. -/
theorem splitLines_append {front : List Char} (ends : ∀ c ∈ front.getLast?, c = '\n')
    (rest : List Char) :
    splitLines (front ++ rest) = splitLines front ++ splitLines rest := by
  fun_induction splitLines front with
  | case1 => rfl
  | case2 more induction =>
      have later := induction fun c last => ends c (List.mem_getLast?_cons last)
      exact congrArg ([] :: ·) later
  | case3 more induction =>
      have later := induction fun c last =>
        ends c (List.mem_getLast?_cons (List.mem_getLast?_cons last))
      exact congrArg ([] :: ·) later
  | case4 c more inside unpaired induction =>
      have later := induction fun c last => ends c (List.mem_getLast?_cons last)
      cases more with
      | nil => exact absurd (ends c rfl) inside
      | cons next others =>
          have stays : c = '\r' → (next :: (others ++ rest)).head? ≠ some '\n' := by
            rintro rfl feed
            cases feed
            exact unpaired others rfl rfl
          rw [List.cons_append, List.cons_append, splitLines_cons inside stays,
            ← List.cons_append, later,
            extendFirst_append c (splitLines_ne_nil (List.cons_ne_nil _ _))]

theorem splitLines_line_append {line : List Char} (noFeed : '\n' ∉ line)
    (noReturn : '\r' ∉ line) (rest : List Char) :
    splitLines (line ++ '\n' :: rest) = line :: splitLines rest := by
  induction line with
  | nil => rfl
  | cons c line induction =>
      rw [List.mem_cons, not_or] at noFeed noReturn
      rw [List.cons_append,
        splitLines_cons (Ne.symm noFeed.1) (fun same => absurd same.symm noReturn.1),
        induction noFeed.2 noReturn.2]
      rfl

theorem splitLines_line {line : List Char} (noFeed : '\n' ∉ line) (nonempty : line ≠ []) :
    splitLines line = [line] := by
  induction line with
  | nil => exact absurd rfl nonempty
  | cons c line induction =>
      rw [List.mem_cons, not_or] at noFeed
      have unpaired : c = '\r' → line.head? ≠ some '\n' :=
        fun _ feed => noFeed.2 (List.mem_of_mem_head? feed)
      rw [splitLines_cons (Ne.symm noFeed.1) unpaired]
      cases line with
      | nil => rfl
      | cons next others =>
          rw [induction noFeed.2 (List.cons_ne_nil _ _)]
          rfl

/-- Nothing stands after the last line feed. -/
def EndsLine (text : String) : Prop :=
  text = "" ∨ text.toList.getLast? = some '\n'

instance (text : String) : Decidable (EndsLine text) :=
  inferInstanceAs (Decidable (_ ∨ _))

theorem lines_append {first : String} (ends : EndsLine first) (second : String) :
    lines (first ++ second) = lines first ++ lines second := by
  have ended : ∀ c ∈ first.toList.getLast?, c = '\n' := by
    rcases ends with rfl | last
    · exact nofun
    · intro c found
      exact Option.some.inj (found.symm.trans last)
  simp only [lines, String.toList_append, splitLines_append ended, List.map_append]

theorem lines_line {line : String} (within : '\n' ∉ line.toList) (filled : line ≠ "") :
    lines line = [line] := by
  have nonempty : line.toList ≠ [] := by simpa using filled
  rw [lines, splitLines_line within nonempty, List.map_singleton, String.ofList_toList]

theorem lines_line_append {line : String} (within : '\n' ∉ line.toList)
    (noReturn : '\r' ∉ line.toList) (rest : String) :
    lines (line ++ "\n" ++ rest) = line :: lines rest := by
  have split := splitLines_line_append within noReturn rest.toList
  have chars : (line ++ "\n" ++ rest).toList = line.toList ++ '\n' :: rest.toList := by
    simp
  rw [lines, chars, split, List.map_cons, String.ofList_toList, lines]

/-- The text `front ++ line ++ back` holds the line whole. -/
structure HasLine (front line back : String) : Prop where
  begins : EndsLine front
  within : '\n' ∉ line.toList
  ends : back = "" ∨ back.toList.head? = some '\n'

instance (front line back : String) : Decidable (HasLine front line back) :=
  decidable_of_iff (_ ∧ _ ∧ _)
    ⟨fun ⟨begins, within, ends⟩ => ⟨begins, within, ends⟩, fun whole =>
      ⟨whole.begins, whole.within, whole.ends⟩⟩

/-! Empty lines, and carriage returns before the line feeds. -/

def feeds (count : Nat) : List Char :=
  List.replicate count '\n'

def emptyLines (count : Nat) : String :=
  String.ofList (feeds count)

theorem splitLines_feeds_append (count : Nat) (text : List Char) :
    splitLines (feeds count ++ text) = List.replicate count [] ++ splitLines text := by
  induction count with
  | zero => rfl
  | succ count induction => exact congrArg ([] :: ·) induction

theorem splitLines_feeds (count : Nat) :
    splitLines (feeds count) = List.replicate count [] := by
  have split := splitLines_feeds_append count []
  rwa [List.append_nil, splitLines_nil, List.append_nil] at split

theorem lines_emptyLines_append (count : Nat) (text : String) :
    lines (emptyLines count ++ text) = List.replicate count "" ++ lines text := by
  simp only [lines, emptyLines, String.toList_append, String.toList_ofList,
    splitLines_feeds_append, List.map_append, List.map_replicate, String.ofList_nil]

/-- One line feed may end the last line; the others are empty lines. -/
theorem exists_splitLines_append_feeds {text : List Char} (noReturn : '\r' ∉ text)
    (count : Nat) :
    ∃ added, splitLines (text ++ feeds count) =
      splitLines text ++ List.replicate added [] := by
  induction text with
  | nil =>
      exact ⟨count, splitLines_feeds count⟩
  | cons c rest induction =>
      rw [List.mem_cons, not_or] at noReturn
      obtain ⟨added, split⟩ := induction noReturn.2
      by_cases feed : c = '\n'
      · subst feed
        exact ⟨added, congrArg ([] :: ·) split⟩
      · have unpaired (more : List Char) : c = '\r' → more.head? ≠ some '\n' :=
          fun same => absurd same.symm noReturn.1
        rw [List.cons_append, splitLines_cons feed (unpaired _),
          splitLines_cons feed (unpaired _)]
        cases rest with
        | cons next others =>
            rw [split, extendFirst_append c (splitLines_ne_nil (List.cons_ne_nil _ _))]
            exact ⟨added, rfl⟩
        | nil =>
            cases count with
            | zero => exact ⟨0, rfl⟩
            | succ count =>
                refine ⟨count, ?_⟩
                rw [List.nil_append, splitLines_feeds]
                rfl

theorem exists_lines_append_emptyLines {text : String} (noReturn : '\r' ∉ text.toList)
    (count : Nat) :
    ∃ added, lines (text ++ emptyLines count) =
      lines text ++ List.replicate added "" := by
  obtain ⟨added, split⟩ := exists_splitLines_append_feeds noReturn count
  refine ⟨added, ?_⟩
  simp only [lines, emptyLines, String.toList_append, String.toList_ofList, split,
    List.map_append, List.map_replicate, String.ofList_nil]

theorem exists_splitLines_line {line back : List Char} (noFeed : '\n' ∉ line)
    (noReturn : '\r' ∉ line) (nonempty : line ≠ [])
    (ends : back = [] ∨ back.head? = some '\n') :
    ∃ rest, splitLines (line ++ back) = line :: rest ∧ ∀ count, ∃ added,
      splitLines (line ++ (feeds count ++ back)) =
        line :: (List.replicate added [] ++ rest) := by
  rcases ends with rfl | feed
  · refine ⟨[], by rw [List.append_nil, splitLines_line noFeed nonempty], ?_⟩
    intro count
    simp only [List.append_nil]
    cases count with
    | zero =>
        refine ⟨0, ?_⟩
        rw [feeds, List.replicate_zero, List.append_nil, splitLines_line noFeed nonempty]
        rfl
    | succ count =>
        refine ⟨count, ?_⟩
        have split := splitLines_line_append noFeed noReturn (feeds count)
        rw [splitLines_feeds] at split
        exact split
  · obtain ⟨more, rfl⟩ : ∃ more, back = '\n' :: more :=
      ⟨_, List.eq_cons_of_mem_head? feed⟩
    refine ⟨splitLines more, splitLines_line_append noFeed noReturn more, ?_⟩
    intro count
    refine ⟨count, ?_⟩
    have moved : feeds count ++ '\n' :: more = '\n' :: (feeds count ++ more) := by
      rw [feeds, List.append_cons, ← List.replicate_succ', List.replicate_succ,
        List.cons_append]
    rw [moved, splitLines_line_append noFeed noReturn, splitLines_feeds_append]

/-- Empty lines next to a line come before it or after it, and to nothing else. -/
theorem HasLine.exists_lines {front line back : String} (whole : HasLine front line back)
    (noReturn : '\r' ∉ line.toList) (nonempty : line ≠ "") :
    ∃ rest, lines (front ++ line ++ back) = lines front ++ line :: rest ∧ ∀ count,
      lines (front ++ emptyLines count ++ line ++ back) =
          lines front ++ (List.replicate count "" ++ line :: rest) ∧
        ∃ added, lines (front ++ line ++ emptyLines count ++ back) =
          lines front ++ line :: (List.replicate added "" ++ rest) := by
  have filled : line.toList ≠ [] := by simpa using nonempty
  have backEnds : back.toList = [] ∨ back.toList.head? = some '\n' :=
    whole.ends.imp_left fun none => by rw [none]; rfl
  obtain ⟨rest, split, spaced⟩ :=
    exists_splitLines_line whole.within noReturn filled backEnds
  have later : lines (line ++ back) = line :: rest.map String.ofList := by
    rw [lines, String.toList_append, split, List.map_cons, String.ofList_toList]
  refine ⟨rest.map String.ofList, ?_, ?_⟩
  · rw [String.append_assoc, lines_append whole.begins, later]
  · intro count
    obtain ⟨added, after⟩ := spaced count
    refine ⟨?_, added, ?_⟩
    · rw [String.append_assoc, String.append_assoc, lines_append whole.begins,
        lines_emptyLines_append, later]
    · have afterLines : lines (line ++ (emptyLines count ++ back)) =
          line :: (List.replicate added "" ++ rest.map String.ofList) := by
        rw [lines, String.toList_append, String.toList_append, emptyLines,
          String.toList_ofList, after, List.map_cons, String.ofList_toList,
          List.map_append, List.map_replicate, String.ofList_nil]
      rw [String.append_assoc, String.append_assoc, lines_append whole.begins, afterLines]

/-- Each line feed after a carriage return. -/
def withReturns (text : String) : String :=
  String.ofList (text.toList.flatMap fun c => if c = '\n' then ['\r', '\n'] else [c])

theorem splitLines_withReturns {text : List Char} (noReturn : '\r' ∉ text) :
    splitLines (text.flatMap fun c => if c = '\n' then ['\r', '\n'] else [c]) =
      splitLines text := by
  induction text with
  | nil => rfl
  | cons c rest induction =>
      rw [List.mem_cons, not_or] at noReturn
      have later := induction noReturn.2
      rw [List.flatMap_cons]
      by_cases feed : c = '\n'
      · subst feed
        exact congrArg ([] :: ·) later
      · have unpaired (more : List Char) : c = '\r' → more.head? ≠ some '\n' :=
          fun same => absurd same.symm noReturn.1
        rw [if_neg feed, List.singleton_append, splitLines_cons feed (unpaired _),
          splitLines_cons feed (unpaired _), later]

theorem lines_withReturns {text : String} (noReturn : '\r' ∉ text.toList) :
    lines (withReturns text) = lines text := by
  rw [lines, withReturns, String.toList_ofList, splitLines_withReturns noReturn, lines]

end Compositor.Text
