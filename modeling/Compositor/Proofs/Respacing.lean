import Mathlib.Logic.Relation
import Compositor.Proofs.DecidableValues
import Compositor.Proofs.FilterCalls

namespace Compositor

variable {ρ : Type}

/-! Empty lines at either end of a block do not come into its text. -/

theorem Block.close_push_empty (block : Block ρ) (document : Document ρ) :
    (block.push "").close document = block.close document := by
  rw [push]
  split
  · rfl
  · rfl

namespace Draft

theorem finish_empties (draft : Draft ρ) (count : Nat) :
    ((List.replicate count (.plain "")).foldl advance draft).finish = draft.finish := by
  induction count generalizing draft with
  | zero => rfl
  | succ count induction =>
      rw [List.replicate_succ, List.foldl_cons, induction]
      exact draft.block.close_push_empty draft.document

theorem empties_opening (draft : Draft ρ) (count : Nat) (spec : KeySpec ρ) :
    ((List.replicate count (.plain "")).foldl advance draft).advance (.opening spec) =
      draft.advance (.opening spec) :=
  congrArg (Draft.mk · { spec }) (draft.finish_empties count)

theorem unfilled_empties (document : Document ρ) (spec : KeySpec ρ) (count : Nat) :
    (List.replicate count (.plain "")).foldl advance { document, block := { spec } } =
      { document, block := { spec } } := by
  induction count with
  | zero => rfl
  | succ count induction => exact induction

theorem opening_empties (draft : Draft ρ) (count : Nat) (spec : KeySpec ρ) :
    (List.replicate count (.plain "")).foldl advance (draft.advance (.opening spec)) =
      draft.advance (.opening spec) :=
  unfilled_empties draft.finish spec count

end Draft

namespace Registry

/-- Empty lines are added at either end of a text, or next to a line that opens a
block. -/
inductive AddsEmptyLines (registry : Registry ρ) : String → String → Prop
  | atStart (text : String) (count : Nat) :
      registry.AddsEmptyLines text (Text.emptyLines count ++ text)
  | atEnd (text : String) (count : Nat) :
      registry.AddsEmptyLines text (text ++ Text.emptyLines count)
  | before {front line back : String} (whole : Text.HasLine front line back)
      {spec : KeySpec ρ} (opens : registry.classify line = .opening spec) (count : Nat) :
      registry.AddsEmptyLines (front ++ line ++ back)
        (front ++ Text.emptyLines count ++ line ++ back)
  | after {front line back : String} (whole : Text.HasLine front line back)
      {spec : KeySpec ρ} (opens : registry.classify line = .opening spec) (count : Nat) :
      registry.AddsEmptyLines (front ++ line ++ back)
        (front ++ line ++ Text.emptyLines count ++ back)

theorem classify_empty (registry : Registry ρ) : registry.classify "" = .plain "" := rfl

variable {registry : Registry ρ} {text spaced : String}

theorem lines_map_replicate (registry : Registry ρ) (count : Nat) :
    (List.replicate count "").map registry.classify = List.replicate count (.plain "") := by
  rw [List.map_replicate, classify_empty]

theorem AddsEmptyLines.noReturn (added : registry.AddsEmptyLines text spaced)
    (noReturn : '\r' ∉ text.toList) : '\r' ∉ spaced.toList := by
  have feeds (count : Nat) : '\r' ∉ Text.feeds count := by
    simp [Text.feeds]
  cases added with
  | atStart _ count => simp [Text.emptyLines, feeds, noReturn]
  | atEnd _ count => simp [Text.emptyLines, feeds, noReturn]
  | before whole opens count =>
      simp only [String.toList_append, List.mem_append, not_or] at noReturn
      simp [Text.emptyLines, feeds, noReturn]
  | after whole opens count =>
      simp only [String.toList_append, List.mem_append, not_or] at noReturn
      simp [Text.emptyLines, feeds, noReturn]

theorem exists_lines_opening {front line back : String}
    (whole : Text.HasLine front line back) (noReturn : '\r' ∉ (front ++ line ++ back).toList)
    {spec : KeySpec ρ} (opens : registry.classify line = .opening spec) :
    ∃ rest, registry.lines (front ++ line ++ back) =
        registry.lines front ++ .opening spec :: rest ∧ ∀ count,
      registry.lines (front ++ Text.emptyLines count ++ line ++ back) =
          registry.lines front ++ (List.replicate count (.plain "") ++
            .opening spec :: rest) ∧
        ∃ added, registry.lines (front ++ line ++ Text.emptyLines count ++ back) =
          registry.lines front ++ .opening spec ::
            (List.replicate added (.plain "") ++ rest) := by
  have filled : line ≠ "" := by
    rintro rfl
    cases opens
  have plain : '\r' ∉ line.toList := by
    simp only [String.toList_append, List.mem_append, not_or] at noReturn
    exact noReturn.1.2
  obtain ⟨rest, split, spaced⟩ := whole.exists_lines plain filled
  refine ⟨rest.map registry.classify, ?_, ?_⟩
  · rw [lines, split, List.map_append, List.map_cons, opens]
    rfl
  · intro count
    obtain ⟨before, added, after⟩ := spaced count
    refine ⟨?_, added, ?_⟩
    · rw [lines, before, List.map_append, List.map_append, List.map_cons, opens,
        lines_map_replicate]
      rfl
    · rw [lines, after, List.map_append, List.map_cons, List.map_append, opens,
        lines_map_replicate]
      rfl

theorem AddsEmptyLines.finish_eq (added : registry.AddsEmptyLines text spaced)
    (noReturn : '\r' ∉ text.toList) (properties : Document ρ) (defaultPath : String) :
    ((registry.lines spaced).foldl Draft.advance
        (registry.draft properties defaultPath)).finish =
      ((registry.lines text).foldl Draft.advance
        (registry.draft properties defaultPath)).finish := by
  cases added with
  | atStart _ count =>
      rw [lines, Text.lines_emptyLines_append, List.map_append, lines_map_replicate,
        List.foldl_append, draft, Draft.unfilled_empties]
      rfl
  | atEnd _ count =>
      obtain ⟨added, split⟩ := Text.exists_lines_append_emptyLines noReturn count
      rw [lines, split, List.map_append, lines_map_replicate, List.foldl_append,
        Draft.finish_empties]
      rfl
  | @before front line back whole spec opens count =>
      obtain ⟨rest, split, spaced⟩ := exists_lines_opening whole noReturn opens
      rw [split, (spaced count).1, List.foldl_append, List.foldl_append,
        List.foldl_append, List.foldl_cons, Draft.empties_opening]
      rfl
  | @after front line back whole spec opens count =>
      obtain ⟨rest, split, spaced⟩ := exists_lines_opening whole noReturn opens
      obtain ⟨added, after⟩ := (spaced count).2
      rw [split, after, List.foldl_append, List.foldl_append, List.foldl_cons,
        List.foldl_cons, List.foldl_append, Draft.opening_empties]

/-- Empty lines around blocks and at the ends of a text leave what it is parsed as, and
so do carriage returns in front of its line feeds. -/
theorem parse_respaced (registry : Registry ρ) {text spaced : String}
    (noReturn : '\r' ∉ text.toList)
    (added : Relation.ReflTransGen registry.AddsEmptyLines text spaced)
    (defaultPath : String) (contentType : Option String) (extra : Document ρ) :
    registry.parse spaced defaultPath contentType extra =
        registry.parse text defaultPath contentType extra ∧
      registry.parse (Text.withReturns spaced) defaultPath contentType extra =
        registry.parse text defaultPath contentType extra := by
  have same : '\r' ∉ spaced.toList ∧
      registry.parse spaced defaultPath contentType extra =
        registry.parse text defaultPath contentType extra := by
    induction added with
    | refl => exact ⟨noReturn, rfl⟩
    | tail _ step induction =>
        obtain ⟨plain, parsed⟩ := induction
        refine ⟨step.noReturn plain, ?_⟩
        rw [← parsed, parse_eq_finish, parse_eq_finish, step.finish_eq plain]
  refine ⟨same.2, ?_⟩
  rw [← same.2, parse_eq_finish, parse_eq_finish, lines, Text.lines_withReturns same.1]
  rfl

end Registry

theorem notice_respaced :
    let filters := Registry.builtin (ρ := Empty)
    let back := "\n@@ title Hi\nBody"
    let text := "Intro\n" ++ "@@ note" ++ back
    let spaced := Text.emptyLines 1 ++ ("Intro\n" ++ Text.emptyLines 2 ++ "@@ note" ++
      Text.emptyLines 3 ++ back) ++ Text.emptyLines 2
    '\r' ∉ text.toList ∧ Relation.ReflTransGen filters.AddsEmptyLines text spaced ∧
      filters.parse spaced = filters.parse text ∧
      filters.parse (Text.withReturns spaced) = filters.parse text ∧
      (filters.parse text).entries =
        [("content", .string "Intro"), ("title", .string "Hi"), ("note", .string "Body")] := by
  intro filters back text spaced
  have noReturn : '\r' ∉ text.toList := by decide
  have read : Directive.ofLine? "@@ note" =
      some { path := { key := "note" }, text := none } := by
    decide +kernel
  have opens : filters.classify "@@ note" = .opening { key := "note" } :=
    filters.classify_opening read rfl
  let before := "Intro\n" ++ Text.emptyLines 2 ++ "@@ note" ++ back
  let around := "Intro\n" ++ Text.emptyLines 2 ++ "@@ note" ++ Text.emptyLines 3 ++ back
  have toBefore : filters.AddsEmptyLines text before := .before (by decide) opens 2
  have toAround : filters.AddsEmptyLines before around := .after (by decide) opens 3
  have toStart : filters.AddsEmptyLines around (Text.emptyLines 1 ++ around) :=
    .atStart around 1
  have toEnd : filters.AddsEmptyLines _ spaced := .atEnd (Text.emptyLines 1 ++ around) 2
  have added : Relation.ReflTransGen filters.AddsEmptyLines text spaced :=
    (((Relation.ReflTransGen.single toBefore).tail toAround).tail toStart).tail toEnd
  obtain ⟨parsed, returned⟩ :=
    filters.parse_respaced noReturn added Document.contentKey none .empty
  exact ⟨noReturn, added, parsed, returned, by decide +kernel⟩

end Compositor
