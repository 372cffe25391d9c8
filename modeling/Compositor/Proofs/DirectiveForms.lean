import Compositor.Proofs.DecidableValues
import Compositor.Proofs.DirectiveGrammar
import Compositor.Proofs.FilterCalls

namespace Compositor

variable {ρ : Type}

namespace DirectiveLine

variable {path : KeyPath} {rest : List Char} (named : path.Named)
  (apart : ∀ c ∈ rest.head?, Text.isBlank c = true)

/-- The marker, one space, and the path with the rest. -/
def spaced : DirectiveLine :=
  ofParts .nil (List.cons_ne_nil ' ' []) (.singleton rfl) named apart .nil

theorem source_spaced :
    (spaced named apart).source = "@@ " ++ path.source ++ String.ofList rest := by
  apply String.toList_inj.mp
  rw [spaced, source_ofParts, String.toList_ofList]
  simp

theorem text?_spaced : (spaced named apart).text? = Directive.textOf? rest := by
  rw [text?, spaced, remainder_ofParts, List.append_nil]

end DirectiveLine

theorem Directive.textOf?_space {text : String} (filled : text ≠ "")
    (bare : Text.trim text = text) : textOf? (' ' :: text.toList) = some text := by
  have space : Text.Blank [' '] := .singleton rfl
  have trimmed : Text.trimmed (' ' :: text.toList) = text.toList := by
    rw [← List.singleton_append, Text.trimmed_blank_append space]
    exact String.ofList_inj.mp (bare.trans String.ofList_toList.symm)
  rw [textOf?, trimmed]
  simp [filled]

theorem KeyPath.not_mem_source {path : KeyPath} (named : path.Named) {c : Char}
    (other : Directive.isPathChar c = false) : c ∉ path.source.toList := by
  intro within
  rw [Directive.isPathChar_of_mem_source named c within] at other
  cases other

/-! A block with one line that is not empty. -/

namespace Block

variable (spec : KeySpec ρ) {text : String} (filled : text ≠ "")
include filled

theorem push_filled : push { spec } text = { spec, collected := [text] } := by
  simp [push, filled]

theorem close_push_filled (document : Document ρ) :
    (push { spec } text).close document = spec.store document text := by
  rw [push_filled spec filled]
  simp [close, lines, filled]

theorem calls_push_filled (document : Document ρ) :
    (push { spec } text).calls document = spec.calls (.string text) document := by
  rw [push_filled spec filled]
  simp [calls, lines, filled]

end Block

namespace Registry

section Lines

variable {registry : Registry ρ} {path : KeyPath} {spec : KeySpec ρ} {text : String}
  (named : path.Named) (resolved : registry.resolve? path = some spec) (filled : text ≠ "")
  (within : '\n' ∉ text.toList)
include named resolved filled within

theorem lines_inline (bare : Text.trim text = text) :
    registry.lines ("@@ " ++ path.source ++ " " ++ text) = [.inline spec text] := by
  have noFeed := KeyPath.not_mem_source named (c := '\n') rfl
  have whole : '\n' ∉ ("@@ " ++ path.source ++ " " ++ text).toList := by
    simp [noFeed, within]
  have something : "@@ " ++ path.source ++ " " ++ text ≠ "" := by simp
  have apart : ∀ c ∈ (' ' :: text.toList).head?, Text.isBlank c = true := by
    rintro c ⟨⟩
    rfl
  have source : (DirectiveLine.spaced named apart).source =
      "@@ " ++ path.source ++ " " ++ text := by
    rw [DirectiveLine.source_spaced, ← List.singleton_append, String.ofList_append,
      String.ofList_toList, ← String.append_assoc]
  have classified := registry.classify_source (.spaced named apart)
  rw [source, DirectiveLine.text?_spaced, Directive.textOf?_space filled bare] at classified
  rw [lines, Text.lines_line whole something, List.map_singleton, classified]
  change [(registry.resolve? path).elim _ _] = _
  rw [resolved]
  rfl

theorem lines_block (plain : (registry.classify text).isDirective = false) :
    registry.lines ("@@ " ++ path.source ++ "\n" ++ text) = [.opening spec, .plain text] := by
  have noFeed := KeyPath.not_mem_source named (c := '\n') rfl
  have noReturn := KeyPath.not_mem_source named (c := '\r') rfl
  have whole : '\n' ∉ ("@@ " ++ path.source).toList := by simp [noFeed]
  have unpaired : '\r' ∉ ("@@ " ++ path.source).toList := by simp [noReturn]
  have apart : ∀ c ∈ ([] : List Char).head?, Text.isBlank c = true := nofun
  have classified := registry.classify_source (.spaced named apart)
  rw [DirectiveLine.source_spaced, String.ofList_nil, String.append_empty] at classified
  rw [lines, Text.lines_line_append whole unpaired, Text.lines_line within filled,
    List.map_cons, List.map_singleton, classified, classify_of_not_isDirective plain]
  change [(registry.resolve? path).elim _ _, _] = _
  rw [resolved]
  rfl

end Lines

/-- A text on the line of its directive is stored as the text of a block would be. -/
theorem parse_inline_eq_block (registry : Registry ρ) {path : KeyPath} {text : String}
    (named : path.Named) (knows : registry.Knows path) (filled : text ≠ "")
    (within : '\n' ∉ text.toList) (bare : Text.trim text = text)
    (plain : (registry.classify text).isDirective = false)
    (defaultPath : String) (contentType : Option String) (extra : Document ρ) :
    let inline := "@@ " ++ path.source ++ " " ++ text
    let block := "@@ " ++ path.source ++ "\n" ++ text
    registry.parse inline defaultPath contentType extra =
        registry.parse block defaultPath contentType extra ∧
      registry.calls inline defaultPath contentType extra =
        registry.calls block defaultPath contentType extra ∧
      ∃ filters, path.filters.map registry.get? = filters.map some ∧
        registry.calls inline defaultPath contentType extra =
          KeySpec.calls { key := path.key, filters } (.string text)
            (.given contentType extra) := by
  intro inline block
  obtain ⟨spec, resolved⟩ := Option.isSome_iff_exists.mp (isSome_resolve?_iff.mpr knows)
  have inlineLines : registry.lines inline = [.inline spec text] :=
    lines_inline named resolved filled within bare
  have blockLines : registry.lines block = [.opening spec, .plain text] :=
    lines_block named resolved filled within plain
  -- Both store the text in the document that the parse begins with.
  let given := Document.given contentType extra
  have inlineParsed : registry.parse inline defaultPath contentType extra =
      spec.store given text := by
    rw [parse_eq_finish, inlineLines]
    rfl
  have blockParsed : registry.parse block defaultPath contentType extra =
      spec.store given text := by
    rw [parse_eq_finish, blockLines]
    exact Block.close_push_filled spec filled given
  have inlineCalls : registry.calls inline defaultPath contentType extra =
      spec.calls (.string text) given := by
    rw [calls, inlineLines, Draft.calls_cons]
    exact List.append_nil _
  have blockCalls : registry.calls block defaultPath contentType extra =
      spec.calls (.string text) given := by
    rw [calls, blockLines, Draft.calls_cons, Draft.calls_cons]
    exact Block.calls_push_filled spec filled given
  obtain ⟨key, found⟩ := resolve?_eq_some_iff.mp resolved
  refine ⟨inlineParsed.trans blockParsed.symm, inlineCalls.trans blockCalls.symm,
    spec.filters, found, ?_⟩
  rw [inlineCalls, ← key]

end Registry

theorem outline_forms :
    let path : KeyPath := { key := "note", filters := ["above"] }
    let text := ":a  @@ b"
    let extra : Document Empty := Document.empty.insert "id" (.string "x")
    let inline := "@@ " ++ path.source ++ " " ++ text
    let block := "@@ " ++ path.source ++ "\n" ++ text
    path.Named ∧ outlineFilters.Knows path ∧ text ≠ "" ∧ '\n' ∉ text.toList ∧
      Text.trim text = text ∧ (outlineFilters.classify text).isDirective = false ∧
      outlineFilters.parse inline "content" none extra =
        outlineFilters.parse block "content" none extra ∧
      outlineFilters.calls inline "content" none extra =
        outlineFilters.calls block "content" none extra ∧
      (outlineFilters.parse inline "content" none extra).entries =
        [("id", .string "x"), ("note", .list [.string "id"])] := by
  intro path text extra inline block
  have named : path.Named := by decide
  have knows : outlineFilters.Knows path := by decide
  have filled : text ≠ "" := by decide
  have within : '\n' ∉ text.toList := by decide
  have bare : Text.trim text = text := by decide
  have plain : (outlineFilters.classify text).isDirective = false := by decide
  obtain ⟨parsed, called, -⟩ := outlineFilters.parse_inline_eq_block named knows filled within
    bare plain "content" none extra
  exact ⟨named, knows, filled, within, bare, plain, parsed, called, by decide +kernel⟩

end Compositor
