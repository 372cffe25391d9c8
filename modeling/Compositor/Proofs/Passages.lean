import Mathlib.Data.List.DropRight
import Compositor.Proofs.DecidableValues
import Compositor.Proofs.Overlay
import Compositor.Source

namespace Compositor

variable {ρ : Type}

namespace Line

def opening? : Line ρ → Option (KeySpec ρ)
  | .opening spec => some spec
  | .inline _ _ | .plain _ => none

def inline? : Line ρ → Option (KeySpec ρ × String)
  | .inline spec text => some (spec, text)
  | .opening _ | .plain _ => none

def plain? : Line ρ → Option String
  | .plain text => some text
  | .opening _ | .inline _ _ => none

theorem opening?_eq_some {line : Line ρ} {spec : KeySpec ρ} :
    line.opening? = some spec ↔ line = .opening spec := by
  cases line <;> simp [opening?]

theorem filterMap_inline?_map_plain (texts : List String) :
    (texts.map (plain (ρ := ρ))).filterMap inline? = [] := by
  simp [inline?]

theorem filterMap_plain?_map_plain (texts : List String) :
    (texts.map (plain (ρ := ρ))).filterMap plain? = texts := by
  rw [List.filterMap_map]
  exact List.filterMap_some

end Line

/-- Lines of a source up to the next opening, and the key that their plain lines
belong to. -/
structure Passage (ρ : Type) where
  spec : KeySpec ρ
  lines : List (Line ρ) := []

namespace Passage

def inlines (passage : Passage ρ) : List (KeySpec ρ × String) :=
  passage.lines.filterMap Line.inline?

def plainLines (passage : Passage ρ) : List String :=
  passage.lines.filterMap Line.plain?

def body (passage : Passage ρ) : List String :=
  (passage.plainLines.dropWhile String.isEmpty).rdropWhile String.isEmpty

/-- What is stored from the passage: the inline texts first, then the body. -/
def stores (passage : Passage ρ) : List (KeySpec ρ × String) :=
  passage.inlines ++
    if passage.plainLines.all String.isEmpty then []
    else [(passage.spec, "\n".intercalate passage.body)]

def cut (spec : KeySpec ρ) : List (Line ρ) → List (Passage ρ)
  | [] => [{ spec }]
  | line :: rest =>
      match line.opening? with
      | some next => { spec } :: cut next rest
      | none =>
          (cut spec rest).modifyHead fun passage =>
            { passage with lines := line :: passage.lines }

@[simp] theorem cut_nil (spec : KeySpec ρ) : cut spec [] = [{ spec }] := rfl

@[simp] theorem cut_opening (spec next : KeySpec ρ) (rest : List (Line ρ)) :
    cut spec (.opening next :: rest) = { spec } :: cut next rest := rfl

theorem exists_cut_eq (spec : KeySpec ρ) (lines : List (Line ρ)) :
    ∃ first later, cut spec lines = { spec, lines := first } :: later := by
  induction lines with
  | nil => exact ⟨[], [], rfl⟩
  | cons line rest induction =>
      obtain ⟨first, later, equal⟩ := induction
      cases opens : line.opening? with
      | some next => exact ⟨[], cut next rest, by simp [cut, opens]⟩
      | none => exact ⟨line :: first, later, by simp [cut, opens, equal]⟩

theorem exists_cut_cons (line : Line ρ) (inside : line.opening? = none)
    (spec : KeySpec ρ) (rest : List (Line ρ)) :
    ∃ first later, cut spec rest = { spec, lines := first } :: later ∧
      cut spec (line :: rest) = { spec, lines := line :: first } :: later := by
  obtain ⟨first, later, equal⟩ := exists_cut_eq spec rest
  exact ⟨first, later, equal, by simp [cut, inside, equal]⟩

/-- Every line is in its passage, and the openings stand between the passages. -/
theorem flatMap_cut (spec : KeySpec ρ) (lines : List (Line ρ)) :
    (cut spec lines).flatMap (fun passage => .opening passage.spec :: passage.lines) =
      .opening spec :: lines := by
  induction lines generalizing spec with
  | nil => rfl
  | cons line rest induction =>
      cases opens : line.opening? with
      | some next =>
          obtain rfl := Line.opening?_eq_some.mp opens
          simp [induction next]
      | none =>
          obtain ⟨first, later, equal, joined⟩ := exists_cut_cons line opens spec rest
          have onward := induction spec
          rw [equal] at onward
          simpa [joined] using onward

theorem opening?_of_mem_cut {spec : KeySpec ρ} {lines : List (Line ρ)}
    {passage : Passage ρ} (member : passage ∈ cut spec lines) :
    ∀ line ∈ passage.lines, line.opening? = none := by
  induction lines generalizing spec passage with
  | nil =>
      obtain rfl := List.mem_singleton.mp member
      exact List.forall_mem_nil _
  | cons line rest induction =>
      cases opens : line.opening? with
      | some next =>
          obtain rfl := Line.opening?_eq_some.mp opens
          rcases List.mem_cons.mp member with rfl | member
          · exact List.forall_mem_nil _
          · exact induction member
      | none =>
          obtain ⟨first, later, equal, joined⟩ := exists_cut_cons line opens spec rest
          have each := @induction spec
          rw [joined] at member
          rw [equal] at each
          rcases List.mem_cons.mp member with rfl | member
          · exact List.forall_mem_cons.mpr ⟨opens, each List.mem_cons_self⟩
          · exact each (List.mem_cons_of_mem _ member)

end Passage

/-! A block holds what its plain lines come to. -/

namespace Block

theorem foldl_push (spec : KeySpec ρ) (lines : List String) :
    lines.foldl push { spec } =
      { spec, collected := (lines.dropWhile String.isEmpty).reverse } := by
  induction lines using List.reverseRecOn with
  | nil => rfl
  | append_singleton lines line induction =>
      rw [List.foldl_append, induction, List.dropWhile_append]
      cases collected : lines.dropWhile String.isEmpty with
      | nil => cases filled : line.isEmpty <;> simp [push, filled]
      | cons first others => simp [push]

theorem lines_foldl_push (spec : KeySpec ρ) (lines : List String) :
    (lines.foldl push { spec }).lines =
      (lines.dropWhile String.isEmpty).rdropWhile String.isEmpty := by
  rw [foldl_push]
  rfl

theorem isEmpty_lines_foldl_push (spec : KeySpec ρ) (lines : List String) :
    (lines.foldl push { spec }).lines.isEmpty = lines.all String.isEmpty := by
  rw [lines_foldl_push, Bool.eq_iff_iff, List.isEmpty_iff, List.rdropWhile_eq_nil_iff,
    List.all_eq_true, ← List.dropWhile_eq_nil_iff, ← List.dropWhile_eq_nil_iff,
    List.dropWhile_idempotent]

end Block

/-- Stores one text after the other. The filters of each see the document as it is
by then. -/
def Document.storeAll (document : Document ρ) (stores : List (KeySpec ρ × String)) :
    Document ρ :=
  stores.foldl (fun document store => store.1.store document store.2) document

@[simp] theorem Document.storeAll_cons (document : Document ρ) (spec : KeySpec ρ)
    (text : String) (rest : List (KeySpec ρ × String)) :
    document.storeAll ((spec, text) :: rest) = (spec.store document text).storeAll rest :=
  rfl

theorem Document.storeAll_append (document : Document ρ)
    (first second : List (KeySpec ρ × String)) :
    document.storeAll (first ++ second) = (document.storeAll first).storeAll second :=
  List.foldl_append

namespace Passage

theorem inlines_plain_append (spec : KeySpec ρ) (texts : List String)
    (after : List (Line ρ)) :
    inlines { spec, lines := texts.map .plain ++ after } =
      after.filterMap Line.inline? := by
  rw [inlines, List.filterMap_append, Line.filterMap_inline?_map_plain, List.nil_append]

theorem plainLines_plain_append (spec : KeySpec ρ) (texts : List String)
    (after : List (Line ρ)) :
    plainLines { spec, lines := texts.map .plain ++ after } =
      texts ++ after.filterMap Line.plain? := by
  rw [plainLines, List.filterMap_append, Line.filterMap_plain?_map_plain]

theorem stores_inline (spec other : KeySpec ρ) (text : String) (texts : List String)
    (after : List (Line ρ)) :
    stores { spec, lines := texts.map .plain ++ .inline other text :: after } =
      (other, text) :: stores { spec, lines := texts.map .plain ++ after } := by
  simp only [stores, body, inlines_plain_append, plainLines_plain_append]
  rfl

theorem storeAll_plain (spec : KeySpec ρ) (texts : List String) (document : Document ρ) :
    document.storeAll (stores { spec, lines := texts.map .plain }) =
      (texts.foldl Block.push { spec }).close document := by
  have inlines_eq := inlines_plain_append spec texts []
  have plainLines_eq := plainLines_plain_append spec texts []
  rw [List.append_nil] at inlines_eq plainLines_eq
  rw [stores, body, inlines_eq, plainLines_eq, Block.close,
    Block.isEmpty_lines_foldl_push, Block.lines_foldl_push, Block.foldl_push]
  cases empty : texts.all String.isEmpty <;> simp [empty, Document.storeAll]

end Passage

namespace Draft

theorem finish_foldl_advance (lines : List (Line ρ)) (document : Document ρ)
    (spec : KeySpec ρ) (before : List String) {first : List (Line ρ)}
    {later : List (Passage ρ)}
    (cut : Passage.cut spec lines = { spec, lines := first } :: later) :
    (lines.foldl advance { document, block := before.foldl Block.push { spec } }).finish =
      document.storeAll
        (Passage.stores { spec, lines := before.map .plain ++ first } ++
          later.flatMap Passage.stores) := by
  -- What the open block has taken in stands in front of the lines still to come.
  induction lines generalizing document spec before first later with
  | nil =>
      cases cut
      change (before.foldl Block.push { spec }).close document = _
      simp [Passage.storeAll_plain]
  | cons line rest induction =>
      rw [List.foldl_cons]
      cases line with
      | inline other text =>
          obtain ⟨onward, others, equal, joined⟩ :=
            Passage.exists_cut_cons (.inline other text) rfl spec rest
          cases cut.symm.trans joined
          rw [Passage.stores_inline]
          exact induction (other.store document text) spec before equal
      | plain text =>
          obtain ⟨onward, others, equal, joined⟩ :=
            Passage.exists_cut_cons (.plain text) rfl spec rest
          cases cut.symm.trans joined
          have taken := induction document spec (before ++ [text]) equal
          rw [List.foldl_append, List.map_append, List.append_assoc] at taken
          exact taken
      | opening next =>
          cases cut
          obtain ⟨onward, others, equal⟩ := Passage.exists_cut_eq next rest
          have closed := Passage.storeAll_plain spec before document
          rw [List.append_nil, Document.storeAll_append, closed, equal]
          exact induction _ next [] equal

end Draft

namespace Document

theorem keys_prefix_storeAll (document : Document ρ)
    (stores : List (KeySpec ρ × String)) :
    document.keys <+: (document.storeAll stores).keys := by
  induction stores generalizing document with
  | nil => exact List.prefix_refl _
  | cons store rest induction =>
      apply (document.keys_prefix_insert store.1.key _).trans
      exact induction (store.1.store document store.2)

/-- What a source starts from: its content type, and further properties after it. -/
def given (contentType : Option String) (extra : Document ρ) : Document ρ :=
  (contentType.elim .empty fun type =>
    Document.empty.insert contentTypeKey (.string type)).overlay extra

end Document

namespace Registry

theorem read_eq_storeAll (registry : Registry ρ) (text : String)
    (properties : Document ρ) (defaultPath : String) :
    registry.read text properties defaultPath =
      properties.storeAll
        ((Passage.cut (registry.defaultSpec defaultPath)
          ((Text.lines text).map registry.classify)).flatMap Passage.stores) := by
  obtain ⟨first, later, equal⟩ := Passage.exists_cut_eq
    (registry.defaultSpec defaultPath) ((Text.lines text).map registry.classify)
  have folded := Draft.finish_foldl_advance _ properties _ [] equal
  rw [List.foldl_map] at folded
  rw [equal]
  exact folded

theorem parse_eq_read (registry : Registry ρ) (text defaultPath : String)
    (contentType : Option String) (extra : Document ρ) :
    registry.parse text defaultPath contentType extra =
      registry.read text (.given contentType extra) defaultPath := by
  cases contentType <;> rfl

/-- A source is read as if it were cut into passages first, each line classified on
its own, and then stored passage by passage. A text is stored under its key as what the
filters make of it, from the left, each given the document as it is by then. -/
theorem parse_eq_storeAll (registry : Registry ρ) (text defaultPath : String)
    (contentType : Option String) (extra : Document ρ) :
    let lines := (Text.lines text).map registry.classify
    let first := (registry.keySpec? defaultPath).getD { key := Document.contentKey }
    let passages := Passage.cut first lines
    let parsed := registry.parse text defaultPath contentType extra
    (passages.flatMap fun passage => .opening passage.spec :: passage.lines) =
        .opening first :: lines ∧
      (∀ passage ∈ passages, ∀ line ∈ passage.lines, line.opening? = none) ∧
      passages.flatMap Passage.plainLines = lines.filterMap Line.plain? ∧
      parsed = (passages.flatMap Passage.stores).foldl
        (fun document store => document.insert store.1.key
          (store.1.filters.foldl (fun value filter => filter value document store.1.key)
            (.string store.2)))
        (.given contentType extra) ∧
      (Document.given contentType extra).keys <+: parsed.keys := by
  intro lines first passages parsed
  have whole := Passage.flatMap_cut first lines
  have stored : parsed = (Document.given contentType extra).storeAll
      (passages.flatMap Passage.stores) := by
    change registry.parse text defaultPath contentType extra = _
    rw [parse_eq_read, read_eq_storeAll]
    rfl
  refine ⟨whole, fun _ => Passage.opening?_of_mem_cut, ?plain, stored, ?keys⟩
  case plain =>
    have plain := congrArg (List.filterMap Line.plain?) whole
    rw [List.filterMap_flatMap] at plain
    exact plain
  case keys =>
    rw [stored]
    exact (Document.given contentType extra).keys_prefix_storeAll _

/-- Two filters: one puts a value in angle brackets, one adds its key and the keys of
its owner. -/
def marking : Registry Empty :=
  [("angle", fun value _ _ => .string ("<" ++ value.text ++ ">")),
    ("where", fun value owner key =>
      .string (value.text ++ " " ++ key ++ " in " ++ ",".intercalate owner.keys))]

/-- Text in front of the first block, a block that is closed by the next one, and one
that is open to the end and is stored over the inline text among its lines. -/
def markedSource : String :=
  "\nTop\n@@ title:where First\n@@ unknown:none x\n\n@@ note:angle:where\n\nb\n\n" ++
    "@@ aside:where:angle c\nd\n@@ side:where\ne\n@@ side f"

theorem parse_markedSource :
    (marking.parse markedSource "content:angle" (some "html")
      (Document.empty.insert "lang" (.string "en"))).entries =
      [("contentType", .string "html"), ("lang", .string "en"),
        ("title", .string "First title in contentType,lang"),
        ("content", .string "<Top\n@@ unknown:none x>"),
        ("aside", .string "<c aside in contentType,lang,title,content>"),
        ("note", .string "<b\n\nd> note in contentType,lang,title,content,aside"),
        ("side", .string "e side in contentType,lang,title,content,aside,note,side")] := by
  rw [(marking.parse_eq_storeAll markedSource "content:angle" (some "html")
    (Document.empty.insert "lang" (.string "en"))).2.2.2.1]
  decide +kernel

end Registry

end Compositor
