import Mathlib.Data.List.Basic
import Compositor.Proofs.DecidableValues
import Compositor.Proofs.Passages
import Compositor.Proofs.SourceLines

namespace Compositor

variable {ρ : Type}

/-- One use of a filter, with all that it is given. -/
structure FilterCall (ρ : Type) where
  filter : Filter ρ
  value : Value ρ
  owner : Document ρ
  key : String

namespace FilterCall

def result (call : FilterCall ρ) : Value ρ :=
  call.filter call.value call.owner call.key

/-- Each filter is given what the one before it returns. -/
def chain (owner : Document ρ) (key : String) :
    List (Filter ρ) → Value ρ → List (FilterCall ρ)
  | [], _ => []
  | filter :: rest, value =>
      { filter, value, owner, key } :: chain owner key rest (filter value owner key)

end FilterCall

def KeySpec.calls (spec : KeySpec ρ) (value : Value ρ) (owner : Document ρ) :
    List (FilterCall ρ) :=
  FilterCall.chain owner spec.key spec.filters value

def Block.calls (block : Block ρ) (document : Document ρ) : List (FilterCall ρ) :=
  if block.lines.isEmpty then []
  else block.spec.calls (.string ("\n".intercalate block.lines)) document

namespace Draft

def finalCalls (draft : Draft ρ) : List (FilterCall ρ) :=
  draft.block.calls draft.document

def callsAt (draft : Draft ρ) : Line ρ → List (FilterCall ρ)
  | .inline spec text => spec.calls (.string text) draft.document
  | .opening _ => draft.finalCalls
  | .plain _ => []

def callsAlong (draft : Draft ρ) : List (Line ρ) → List (FilterCall ρ)
  | [] => []
  | line :: rest => draft.callsAt line ++ (draft.advance line).callsAlong rest

/-- The calls of filters while lines are taken in and the last block is closed. -/
def calls (draft : Draft ρ) (lines : List (Line ρ)) : List (FilterCall ρ) :=
  draft.callsAlong lines ++ (lines.foldl advance draft).finalCalls

theorem callsAlong_append (draft : Draft ρ) (first second : List (Line ρ)) :
    draft.callsAlong (first ++ second) =
      draft.callsAlong first ++ (first.foldl advance draft).callsAlong second := by
  induction first generalizing draft with
  | nil => rfl
  | cons line rest induction =>
      rw [List.cons_append, callsAlong, callsAlong, induction, List.append_assoc]
      rfl

theorem calls_cons (draft : Draft ρ) (line : Line ρ) (rest : List (Line ρ)) :
    draft.calls (line :: rest) = draft.callsAt line ++ (draft.advance line).calls rest :=
  List.append_assoc _ _ _

theorem calls_append (draft : Draft ρ) (first second : List (Line ρ)) :
    draft.calls (first ++ second) =
      draft.callsAlong first ++ (first.foldl advance draft).calls second := by
  rw [calls, calls, callsAlong_append, List.foldl_append, List.append_assoc]

end Draft

namespace Registry

/-- What a source is read into: properties, and an open block without lines. -/
def draft (registry : Registry ρ) (properties : Document ρ) (defaultPath : String) :
    Draft ρ :=
  { document := properties, block := { spec := registry.defaultSpec defaultPath } }

def lines (registry : Registry ρ) (text : String) : List (Line ρ) :=
  (Text.lines text).map registry.classify

/-- The calls of filters while a source is parsed, in their order. -/
def calls (registry : Registry ρ) (text defaultPath : String)
    (contentType : Option String) (extra : Document ρ) : List (FilterCall ρ) :=
  (registry.draft (.given contentType extra) defaultPath).calls (registry.lines text)

theorem parse_eq_finish (registry : Registry ρ) (text defaultPath : String)
    (contentType : Option String) (extra : Document ρ) :
    registry.parse text defaultPath contentType extra =
      ((registry.lines text).foldl Draft.advance
        (registry.draft (.given contentType extra) defaultPath)).finish := by
  rw [parse_eq_read, lines, List.foldl_map]
  rfl

end Registry

/-! Filters take part in reading a source by these calls and by nothing else: other
filters that answer them alike give the same document. -/

def FilterCall.AnsweredBy (change : Filter ρ → Filter ρ) (call : FilterCall ρ) : Prop :=
  change call.filter call.value call.owner call.key = call.result

section Change

variable (change : Filter ρ → Filter ρ)

def KeySpec.mapFilters (spec : KeySpec ρ) : KeySpec ρ :=
  { spec with filters := spec.filters.map change }

def Line.mapFilters : Line ρ → Line ρ
  | .inline spec text => .inline (spec.mapFilters change) text
  | .opening spec => .opening (spec.mapFilters change)
  | .plain text => .plain text

def Block.mapFilters (block : Block ρ) : Block ρ :=
  { block with spec := block.spec.mapFilters change }

def Draft.mapFilters (draft : Draft ρ) : Draft ρ :=
  { draft with block := draft.block.mapFilters change }

def Registry.mapFilters (registry : Registry ρ) : Registry ρ :=
  registry.map fun entry => (entry.1, change entry.2)

variable {change}

theorem KeySpec.apply_mapFilters {spec : KeySpec ρ} {value : Value ρ} {owner : Document ρ}
    (answered : ∀ call ∈ spec.calls value owner, call.AnsweredBy change) :
    (spec.mapFilters change).apply value owner = spec.apply value owner := by
  obtain ⟨key, filters⟩ := spec
  change ∀ call ∈ FilterCall.chain owner key filters value, _ at answered
  change (filters.map change).foldl (fun value filter => filter value owner key) value =
    filters.foldl (fun value filter => filter value owner key) value
  induction filters generalizing value with
  | nil => rfl
  | cons filter rest induction =>
      obtain ⟨first, others⟩ := List.forall_mem_cons.mp answered
      have same : change filter value owner key = filter value owner key := first
      rw [List.map_cons, List.foldl_cons, List.foldl_cons, same]
      exact induction others

theorem KeySpec.store_mapFilters {spec : KeySpec ρ} {text : String} {document : Document ρ}
    (answered : ∀ call ∈ spec.calls (.string text) document, call.AnsweredBy change) :
    (spec.mapFilters change).store document text = spec.store document text :=
  congrArg (document.insert spec.key) (apply_mapFilters answered)

theorem Block.push_mapFilters (block : Block ρ) (line : String) :
    (block.mapFilters change).push line = (block.push line).mapFilters change := by
  rw [push, push, apply_ite (mapFilters change)]
  rfl

theorem Block.close_mapFilters {block : Block ρ} {document : Document ρ}
    (answered : ∀ call ∈ block.calls document, call.AnsweredBy change) :
    (block.mapFilters change).close document = block.close document := by
  rw [Block.calls] at answered
  rw [close, close]
  change (if block.lines.isEmpty then _ else _) = _
  split
  · rfl
  · rename_i filled
    rw [if_neg filled] at answered
    exact KeySpec.store_mapFilters answered

theorem Draft.advance_mapFilters {draft : Draft ρ} {line : Line ρ}
    (answered : ∀ call ∈ draft.callsAt line, call.AnsweredBy change) :
    (draft.mapFilters change).advance (line.mapFilters change) =
      (draft.advance line).mapFilters change := by
  cases line with
  | inline spec text =>
      have stored := KeySpec.store_mapFilters answered
      exact congrArg (fun document => Draft.mk document (draft.block.mapFilters change)) stored
  | opening spec =>
      have closed := Block.close_mapFilters answered
      exact congrArg (fun document => Draft.mk document { spec := spec.mapFilters change })
        closed
  | plain text =>
      exact congrArg (Draft.mk draft.document) (draft.block.push_mapFilters text)

theorem Draft.finish_mapFilters {draft : Draft ρ} {lines : List (Line ρ)}
    (answered : ∀ call ∈ draft.calls lines, call.AnsweredBy change) :
    ((lines.map (Line.mapFilters change)).foldl advance (draft.mapFilters change)).finish =
      (lines.foldl advance draft).finish := by
  induction lines generalizing draft with
  | nil => exact Block.close_mapFilters answered
  | cons line rest induction =>
      rw [calls_cons] at answered
      obtain ⟨first, others⟩ := List.forall_mem_append.mp answered
      rw [List.map_cons, List.foldl_cons, List.foldl_cons, advance_mapFilters first]
      exact induction others

theorem Entries.get?_mapFilters (registry : Registry ρ) (name : String) :
    (registry.mapFilters change).get? name = (registry.get? name).map change := by
  induction registry with
  | nil => rfl
  | cons entry rest induction =>
      obtain ⟨first, filter⟩ := entry
      change (if first = name then some (change filter) else _) = _
      rw [get?_cons]
      split
      · rfl
      · exact induction

theorem Registry.resolve?_mapFilters (registry : Registry ρ) (path : KeyPath) :
    (registry.mapFilters change).resolve? path =
      (registry.resolve? path).map (KeySpec.mapFilters change) := by
  obtain ⟨key, filters⟩ := path
  have found : filters.mapM (registry.mapFilters change).get? =
      (filters.mapM registry.get?).map (List.map change) := by
    induction filters with
    | nil => rfl
    | cons name rest induction =>
        rw [List.mapM_cons, List.mapM_cons, induction, Entries.get?_mapFilters]
        cases registry.get? name with
        | none => rfl
        | some filter => cases rest.mapM registry.get? <;> rfl
  rw [resolve?, resolve?, found, Option.map_map, Option.map_map]
  rfl

theorem Registry.classify_mapFilters (registry : Registry ρ) (text : String) :
    (registry.mapFilters change).classify text =
      (registry.classify text).mapFilters change := by
  rw [classify, classify]
  cases Directive.ofLine? text with
  | none => rfl
  | some directive =>
      dsimp only
      rw [resolve?_mapFilters]
      cases registry.resolve? directive.path with
      | none => rfl
      | some spec => cases directive.text <;> rfl

theorem Registry.draft_mapFilters (registry : Registry ρ) (properties : Document ρ)
    (defaultPath : String) :
    (registry.mapFilters change).draft properties defaultPath =
      (registry.draft properties defaultPath).mapFilters change := by
  rw [draft, defaultSpec, keySpec?, resolve?_mapFilters]
  rw [draft, defaultSpec, keySpec?]
  cases registry.resolve? (KeyPath.ofText defaultPath) <;> rfl

theorem Registry.parse_mapFilters {registry : Registry ρ} {text defaultPath : String}
    {contentType : Option String} {extra : Document ρ}
    (answered : ∀ call ∈ registry.calls text defaultPath contentType extra,
      call.AnsweredBy change) :
    (registry.mapFilters change).parse text defaultPath contentType extra =
      registry.parse text defaultPath contentType extra := by
  have classified : (registry.mapFilters change).lines text =
      (registry.lines text).map (Line.mapFilters change) := by
    rw [lines, lines, List.map_map]
    apply List.map_congr_left
    intro line _
    exact registry.classify_mapFilters line
  rw [parse_eq_finish, parse_eq_finish, classified, draft_mapFilters]
  exact Draft.finish_mapFilters answered

end Change

/-! At an opening a source can be cut. -/

theorem Draft.finish_unfilled (document : Document ρ) (spec : KeySpec ρ) :
    finish { document, block := { spec } } = document := rfl

theorem Draft.advance_opening (draft : Draft ρ) (spec : KeySpec ρ) :
    draft.advance (.opening spec) = { document := draft.finish, block := { spec } } := rfl

theorem Document.given_none (extra : Document ρ) : Document.given none extra = extra :=
  extra.empty_overlay

theorem Registry.lines_append (registry : Registry ρ) {first : String}
    (ends : Text.EndsLine first) (second : String) :
    registry.lines (first ++ second) = registry.lines first ++ registry.lines second := by
  rw [lines, Text.lines_append ends, List.map_append]
  rfl

theorem Registry.parse_append_opening (registry : Registry ρ) {first second : String}
    {spec : KeySpec ρ}
    (ends : Text.EndsLine first)
    (opens : (Text.lines second).head?.map registry.classify = some (.opening spec))
    (defaultPath : String) (contentType : Option String) (extra : Document ρ)
    (other : String) :
    let before := registry.parse first defaultPath contentType extra
    registry.parse (first ++ second) defaultPath contentType extra =
        registry.parse second other none before ∧
      registry.calls (first ++ second) defaultPath contentType extra =
        registry.calls first defaultPath contentType extra ++
          registry.calls second other none before := by
  intro before
  obtain ⟨rest, later⟩ : ∃ rest, registry.lines second = .opening spec :: rest := by
    rw [← List.head?_map] at opens
    exact ⟨_, List.eq_cons_of_mem_head? opens⟩
  have whole := registry.lines_append ends second
  -- Past the opening, both runs go on from the same draft.
  let cut := (registry.lines first).foldl Draft.advance
    (registry.draft (.given contentType extra) defaultPath)
  have stored : before = cut.finish :=
    registry.parse_eq_finish first defaultPath contentType extra
  have onward : (registry.draft before other).advance (.opening spec) =
      cut.advance (.opening spec) := by
    rw [Draft.advance_opening, Draft.advance_opening, draft, Draft.finish_unfilled, stored]
  constructor
  · rw [parse_eq_finish, parse_eq_finish, whole, later, List.foldl_append, List.foldl_cons,
      List.foldl_cons, Document.given_none, onward]
  · have unfilled : (registry.draft before other).callsAt (.opening spec) = [] := rfl
    rw [calls, calls, calls, whole, later, Draft.calls_append, Draft.calls_cons,
      Draft.calls_cons, Document.given_none, onward, unfilled, List.nil_append]
    exact (List.append_assoc _ _ _).symm

/-- Its filter lists the keys that the document has by then. -/
def outlineFilters : Registry Empty :=
  [("above", fun _ owner _ => .list (owner.keys.map .string))]

theorem outline_parsed :
    let first := "Intro\n\n"
    let second := "@@ note:above\nBody\n@@ last:above x"
    let before := outlineFilters.parse first "content" none .empty
    Text.EndsLine first ∧
      (Text.lines second).head?.map outlineFilters.classify =
        some (.opening { key := "note", filters := outlineFilters.map Prod.snd }) ∧
      outlineFilters.parse (first ++ second) "content" none .empty =
        outlineFilters.parse second "summary" none before ∧
      outlineFilters.calls (first ++ second) "content" none .empty =
        outlineFilters.calls first "content" none .empty ++
          outlineFilters.calls second "summary" none before ∧
      (outlineFilters.parse (first ++ second) "content" none .empty).entries =
        [("content", .string "Intro"), ("last", .list [.string "content"]),
          ("note", .list [.string "content", .string "last"])] := by
  intro first second before
  have ends : Text.EndsLine first := by decide
  have split : Text.lines second = ["@@ note:above", "Body", "@@ last:above x"] := by
    decide +kernel
  have read : Directive.ofLine? "@@ note:above" =
      some { path := { key := "note", filters := ["above"] }, text := none } := by
    decide +kernel
  have opens : (Text.lines second).head?.map outlineFilters.classify =
      some (.opening { key := "note", filters := outlineFilters.map Prod.snd }) := by
    rw [split]
    exact congrArg some (outlineFilters.classify_opening read rfl)
  obtain ⟨parsed, called⟩ :=
    outlineFilters.parse_append_opening ends opens "content" none .empty "summary"
  exact ⟨ends, opens, parsed, called, by decide +kernel⟩

end Compositor
