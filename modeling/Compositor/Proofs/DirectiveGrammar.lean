import Mathlib.Data.List.TakeWhile
import Mathlib.Logic.IsEmpty.Defs
import Compositor.Directive
import Compositor.Proofs.SplitText
import Compositor.Proofs.Trimming

namespace Compositor

namespace KeyPath

def names (path : KeyPath) : List String :=
  path.key :: path.filters

/-- The names as they stand in a source. -/
def source (path : KeyPath) : String :=
  ":".intercalate path.names

def Named (path : KeyPath) : Prop :=
  ∀ name ∈ path.names, Text.IsName name.toList

instance (path : KeyPath) : Decidable path.Named :=
  inferInstanceAs (Decidable (∀ _ ∈ _, _))

end KeyPath

/-- The text of an inline directive, from what stands after its path. -/
def Directive.textOf? (remainder : List Char) : Option String :=
  let text := Text.trimmed remainder
  if text.isEmpty then none else some (String.ofList text)

theorem Directive.toList_textOf? (remainder : List Char) :
    (textOf? remainder).elim [] String.toList = Text.trimmed remainder := by
  rw [textOf?]
  cases Text.trimmed remainder <;> simp

/-- A line `w₁ @@ w₂ P [w₃ T] w₄`, part by part. -/
structure DirectiveLine where
  before : List Char
  gap : List Char
  path : KeyPath
  inline : Option (List Char × List Char)
  after : List Char
  before_blank : Text.Blank before
  gap_ne_nil : gap ≠ []
  gap_blank : Text.Blank gap
  path_named : path.Named
  inline_apart : ∀ part ∈ inline, part.1 ≠ [] ∧ Text.Blank part.1
  after_blank : Text.Blank after

namespace DirectiveLine

/-- What stands after the path. -/
def remainder (line : DirectiveLine) : List Char :=
  (line.inline.elim [] fun part => part.1 ++ part.2) ++ line.after

def chars (line : DirectiveLine) : List Char :=
  line.before ++ '@' :: '@' :: (line.gap ++ (line.path.source.toList ++ line.remainder))

def source (line : DirectiveLine) : String :=
  String.ofList line.chars

def text? (line : DirectiveLine) : Option String :=
  Directive.textOf? line.remainder

/-- The first blank behind the path sets the text apart, whatever follows it. -/
def ofParts {before gap : List Char} {path : KeyPath} {rest after : List Char}
    (beforeBlank : Text.Blank before) (gapNonempty : gap ≠ []) (gapBlank : Text.Blank gap)
    (named : path.Named) (apart : ∀ c ∈ rest.head?, Text.isBlank c = true)
    (afterBlank : Text.Blank after) : DirectiveLine where
  before
  gap
  path
  inline := rest.head?.map fun first => ([first], rest.tail)
  after
  before_blank := beforeBlank
  gap_ne_nil := gapNonempty
  gap_blank := gapBlank
  path_named := named
  inline_apart := by
    intro part written
    obtain ⟨first, head, rfl⟩ := Option.map_eq_some_iff.mp written
    exact ⟨List.cons_ne_nil first [], .singleton (apart first head)⟩
  after_blank := afterBlank

section

variable {before gap : List Char} {path : KeyPath} {rest after : List Char}
  (beforeBlank : Text.Blank before) (gapNonempty : gap ≠ []) (gapBlank : Text.Blank gap)
  (named : path.Named) (apart : ∀ c ∈ rest.head?, Text.isBlank c = true)
  (afterBlank : Text.Blank after)

theorem remainder_ofParts :
    (ofParts beforeBlank gapNonempty gapBlank named apart afterBlank).remainder =
      rest ++ after := by
  cases rest <;> rfl

theorem source_ofParts :
    (ofParts beforeBlank gapNonempty gapBlank named apart afterBlank).source =
      String.ofList
        (before ++ '@' :: '@' :: (gap ++ (path.source.toList ++ (rest ++ after)))) := by
  rw [source, chars, remainder_ofParts]
  rfl

end

end DirectiveLine

namespace Directive

open Text

theorem isBlank_of_isPathChar {c : Char} (char : isPathChar c = true) :
    isBlank c = false := by
  change ((((decide (65 ≤ c.val ∧ c.val ≤ 90) || (97 ≤ c.val && c.val ≤ 122)) ||
    (48 ≤ c.val && c.val ≤ 57)) || c = '_') || c = ':') = true at char
  simp only [UInt32.le_iff_toNat_le, Bool.or_eq_true, Bool.and_eq_true,
    decide_eq_true_eq] at char
  change (((((65 ≤ c.toNat ∧ c.toNat ≤ 90) ∨ (97 ≤ c.toNat ∧ c.toNat ≤ 122)) ∨
    (48 ≤ c.toNat ∧ c.toNat ≤ 57)) ∨ c = '_') ∨ c = ':') at char
  simp only [isBlank, blankRanges, List.any_cons, List.any_nil, Bool.or_false,
    Bool.or_eq_false_iff, Bool.and_eq_false_iff, decide_eq_false_iff_not]
  rcases char with ((letter | digit) | rfl) | rfl
  · omega
  · omega
  · decide
  · decide

theorem isPathChar_of_mem_source {path : KeyPath} (named : path.Named) :
    ∀ c ∈ path.source.toList, isPathChar c = true := by
  rw [KeyPath.source, String.toList_intercalate]
  apply forall_mem_intercalate
  · rfl
  · intro name member c within
    rw [isPathChar, (named name member).2 c within, Bool.true_or]

theorem splitAt_source {path : KeyPath} (named : path.Named) :
    splitAt ':' path.source.toList = path.names.map String.toList := by
  rw [KeyPath.source, String.toList_intercalate]
  apply splitAt_intercalate (List.cons_ne_nil _ _)
  intro name member colon
  exact absurd ((named name member).2 ':' colon) (by decide)

theorem source_ne_nil {path : KeyPath} (named : path.Named) :
    path.source.toList ≠ [] := by
  intro empty
  have pieces := splitAt_source named
  rw [empty] at pieces
  have key : [] = path.key.toList := (List.cons.inj pieces).1
  exact (named path.key List.mem_cons_self).1 key.symm

theorem span_source {path : KeyPath} (named : path.Named) {rest : List Char}
    (apart : ∀ c ∈ rest.head?, isBlank c = true) :
    (path.source.toList ++ rest).takeWhile isPathChar = path.source.toList ∧
      (path.source.toList ++ rest).dropWhile isPathChar = rest := by
  have chars := isPathChar_of_mem_source named
  rw [List.takeWhile_append_of_pos chars, List.dropWhile_append_of_pos chars]
  cases rest with
  | nil => exact ⟨List.append_nil _, rfl⟩
  | cons c more =>
      have outside : isPathChar c = false := by
        rw [Bool.eq_false_iff]
        intro inside
        have solid := isBlank_of_isPathChar inside
        rw [apart c rfl] at solid
        cases solid
      simp [outside]

theorem ofBody?_source {path : KeyPath} (named : path.Named) {rest : List Char}
    (apart : ∀ c ∈ rest.head?, isBlank c = true) :
    ofBody? (path.source.toList ++ rest) = some { path, text := textOf? rest } := by
  obtain ⟨taken, dropped⟩ := span_source named apart
  have filled : ((path.names.map String.toList).all fun name => !name.isEmpty) = true := by
    rw [List.all_eq_true]
    intro piece member
    obtain ⟨name, among, rfl⟩ := List.mem_map.mp member
    simpa using (named name among).1
  have onward : (rest.isEmpty || startsBlank rest) = true := by
    cases rest with
    | nil => rfl
    | cons c more => exact apart c rfl
  rw [ofBody?]
  simp only [taken, dropped, splitAt_source named, filled, onward, Bool.and_self, if_true]
  simp [KeyPath.names, textOf?]

theorem exists_of_ofBody? {body : List Char} {directive : Directive}
    (read : ofBody? body = some directive) :
    ∃ path rest, KeyPath.Named path ∧ body = path.source.toList ++ rest ∧
      ∀ c ∈ rest.head?, isBlank c = true := by
  rw [ofBody?] at read
  dsimp only at read
  split at read
  · rename_i accepted
    obtain ⟨filled, onward⟩ := Bool.and_eq_true_iff.mp accepted
    split at read
    · cases read
    · rename_i key filters pieces
      let path : KeyPath :=
        { key := String.ofList key, filters := filters.map String.ofList }
      have names : path.names.map String.toList =
          splitAt ':' (body.takeWhile isPathChar) := by
        simp [path, KeyPath.names, pieces, Function.comp_def]
      refine ⟨path, body.dropWhile isPathChar, ?named, ?joined, ?apart⟩
      case named =>
        intro name member
        have among : name.toList ∈ splitAt ':' (body.takeWhile isPathChar) :=
          names ▸ List.mem_map_of_mem member
        refine ⟨by simpa using List.all_eq_true.mp filled _ among, ?_⟩
        intro c within
        obtain ⟨taken, notColon⟩ := of_mem_splitAt among within
        simpa [isPathChar, notColon] using List.mem_takeWhile_imp taken
      case joined =>
        rw [KeyPath.source, String.toList_intercalate, names]
        change body = [':'].intercalate _ ++ _
        rw [intercalate_splitAt, List.takeWhile_append_dropWhile]
      case apart =>
        intro c first
        cases rest : body.dropWhile isPathChar with
        | nil =>
            rw [rest] at first
            cases first
        | cons head more =>
            rw [rest] at first onward
            cases first
            exact onward
  · cases read

theorem trimmed_gap_source {path : KeyPath} (named : path.Named) {gap : List Char}
    (blank : Blank gap) (rest : List Char) :
    trimmed (gap ++ (path.source.toList ++ rest)) = path.source.toList ++ trimRight rest := by
  have chars := isPathChar_of_mem_source named
  have nonempty := source_ne_nil named
  have begins : trimLeft (path.source.toList ++ rest) = path.source.toList ++ rest := by
    obtain ⟨c, more, source⟩ := List.exists_cons_of_ne_nil nonempty
    rw [source] at chars ⊢
    have solid := isBlank_of_isPathChar (chars c List.mem_cons_self)
    rw [List.cons_append, trimLeft_cons, solid]
    rfl
  have ends : ∃ c ∈ path.source.toList.getLast?, isBlank c = false := by
    refine ⟨_, List.getLast?_eq_some_getLast nonempty, ?_⟩
    exact isBlank_of_isPathChar (chars _ (List.getLast_mem nonempty))
  rw [trimmed_blank_append blank, trimmed, begins, trimRight_append_of_getLast? ends]

end Directive

namespace DirectiveLine

open Text Directive

theorem isBlank_of_head?_remainder (line : DirectiveLine) :
    ∀ c ∈ line.remainder.head?, isBlank c = true := by
  rw [remainder]
  cases written : line.inline with
  | none =>
      intro c first
      exact line.after_blank c (List.mem_of_mem_head? first)
  | some part =>
      obtain ⟨nonempty, blank⟩ := line.inline_apart part written
      obtain ⟨c, more, gap⟩ := List.exists_cons_of_ne_nil nonempty
      rw [gap] at blank
      intro first equal
      simp only [Option.elim_some, gap, List.cons_append, List.head?_cons,
        Option.mem_some_iff] at equal
      exact equal ▸ blank c List.mem_cons_self

/-- A line of the grammar is read part by part. -/
theorem ofLine?_source (line : DirectiveLine) :
    ofLine? line.source = some { path := line.path, text := line.text? } := by
  have marker : trimLeft line.source.toList =
      '@' :: '@' :: (line.gap ++ (line.path.source.toList ++ line.remainder)) := by
    rw [source, String.toList_ofList, DirectiveLine.chars,
      trimLeft_blank_append line.before_blank, trimLeft_cons]
    rfl
  have spaced : startsBlank (line.gap ++ (line.path.source.toList ++ line.remainder)) =
      true := by
    obtain ⟨c, more, gap⟩ := List.exists_cons_of_ne_nil line.gap_ne_nil
    have blank := line.gap_blank
    rw [gap] at blank ⊢
    exact blank c List.mem_cons_self
  have body := trimmed_gap_source line.path_named line.gap_blank line.remainder
  have apart : ∀ c ∈ (trimRight line.remainder).head?, isBlank c = true :=
    fun c first => line.isBlank_of_head?_remainder c (head?_trimRight first)
  rw [ofLine?, marker]
  simp only [spaced, if_true, body, ofBody?_source line.path_named apart]
  rw [text?, textOf?, textOf?, trimmed_trimRight]

/-- What is read as a directive is a line of the grammar. -/
theorem exists_of_ofLine? {text : String} {directive : Directive}
    (read : ofLine? text = some directive) :
    ∃ line : DirectiveLine, line.source = text := by
  rw [ofLine?] at read
  split at read
  · rename_i rest marker
    split at read
    · rename_i spaced
      cases rest with
      | nil => cases spaced
      | cons c rest =>
          have gap : Blank [c] := .singleton spaced
          obtain ⟨before, beforeBlank, front⟩ := exists_trimLeft text.toList
          obtain ⟨between, after, betweenBlank, afterBlank, whole⟩ := exists_trimmed rest
          rw [← List.singleton_append, trimmed_blank_append gap] at read
          obtain ⟨path, remainder, named, body, apart⟩ := exists_of_ofBody? read
          refine ⟨ofParts beforeBlank (List.cons_ne_nil c between)
            (gap.append betweenBlank) named apart afterBlank, ?_⟩
          rw [source_ofParts, ← List.append_assoc path.source.toList, ← body]
          change String.ofList (before ++ '@' :: '@' :: (c :: (between ++ _))) = text
          rw [whole, ← marker, front, String.ofList_toList]
    · cases read
  · cases read

/-- Blanks of any kind may stand around the parts, and the text may hold colons. -/
example : ofLine? "\t@@ \u00a0k:int\u2003: 5\u3000" =
    some { path := { key := "k", filters := ["int"] }, text := some ": 5" } := by
  decide +kernel

/-- A path ends with a name. -/
example : ofLine? "@@ k: v" = none := by decide +kernel

theorem path_unique {line other : DirectiveLine} (same : line.source = other.source) :
    line.path = other.path ∧ trimmed line.remainder = trimmed other.remainder := by
  have read := line.ofLine?_source
  rw [same, other.ofLine?_source] at read
  obtain ⟨path, text⟩ := Directive.mk.inj (Option.some.inj read)
  refine ⟨path.symm, ?_⟩
  rw [← toList_textOf?, ← toList_textOf?, ← text?, ← text?, text]

/-- More blanks around the line. -/
def widen (line : DirectiveLine) {before after : List Char} (beforeBlank : Blank before)
    (afterBlank : Blank after) : DirectiveLine :=
  { line with
    before := before ++ line.before
    after := line.after ++ after
    before_blank := beforeBlank.append line.before_blank
    after_blank := line.after_blank.append afterBlank }

section

variable (line : DirectiveLine) {before after : List Char} (beforeBlank : Blank before)
  (afterBlank : Blank after)

theorem remainder_widen :
    (line.widen beforeBlank afterBlank).remainder = line.remainder ++ after :=
  (List.append_assoc _ _ _).symm

theorem source_widen :
    (line.widen beforeBlank afterBlank).source =
      String.ofList before ++ line.source ++ String.ofList after := by
  have chars : (line.widen beforeBlank afterBlank).chars =
      before ++ line.chars ++ after := by
    rw [DirectiveLine.chars, remainder_widen]
    simp [widen, DirectiveLine.chars]
  rw [source, chars, String.ofList_append, String.ofList_append, source]

theorem text?_widen : (line.widen beforeBlank afterBlank).text? = line.text? := by
  rw [text?, remainder_widen, textOf?, trimmed_append_blank _ afterBlank]
  rfl

end

end DirectiveLine

variable {ρ : Type}

namespace Line

def directive (spec : KeySpec ρ) : Option String → Line ρ
  | some text => .inline spec text
  | none => .opening spec

def isDirective : Line ρ → Bool
  | .inline _ _ | .opening _ => true
  | .plain _ => false

theorem isDirective_directive (spec : KeySpec ρ) (text : Option String) :
    (directive spec text).isDirective = true := by
  cases text <;> rfl

end Line

theorem mapM_eq_some_iff {α β : Type} {f : α → Option β} {items : List α}
    {results : List β} :
    items.mapM f = some results ↔ items.map f = results.map some := by
  induction items generalizing results with
  | nil => cases results <;> simp
  | cons item rest induction =>
      rw [List.mapM_cons]
      cases results with
      | nil => simp [Option.bind_eq_some_iff]
      | cons result results => simp [Option.bind_eq_some_iff, induction]

namespace Registry

/-- All filters of the path are registered. -/
def Knows (registry : Registry ρ) (path : KeyPath) : Prop :=
  ∀ name ∈ path.filters, registry.contains name = true

instance (registry : Registry ρ) (path : KeyPath) : Decidable (registry.Knows path) :=
  inferInstanceAs (Decidable (∀ _ ∈ _, _))

variable {registry : Registry ρ} {path : KeyPath}

theorem resolve?_eq_some_iff {spec : KeySpec ρ} :
    registry.resolve? path = some spec ↔
      spec.key = path.key ∧ path.filters.map registry.get? = spec.filters.map some := by
  obtain ⟨key, filters⟩ := spec
  rw [← mapM_eq_some_iff, resolve?, Option.map_eq_some_iff]
  constructor
  · rintro ⟨found, resolved, same⟩
    cases same
    exact ⟨rfl, resolved⟩
  · rintro ⟨rfl, resolved⟩
    exact ⟨filters, resolved, rfl⟩

theorem isSome_resolve?_iff : (registry.resolve? path).isSome = true ↔ registry.Knows path := by
  obtain ⟨key, filters⟩ := path
  rw [resolve?, Option.isSome_map, Knows]
  induction filters with
  | nil => simp
  | cons name rest induction =>
      rw [List.mapM_cons, List.forall_mem_cons, ← induction, Entries.contains]
      cases registry.get? name with
      | none => simp
      | some filter => cases rest.mapM registry.get? <;> simp

theorem classify_source (registry : Registry ρ) (line : DirectiveLine) :
    registry.classify line.source =
      (registry.resolve? line.path).elim (.plain line.source) fun spec =>
        .directive spec line.text? := by
  rw [classify, line.ofLine?_source]
  dsimp only
  cases registry.resolve? line.path with
  | none => rfl
  | some spec => cases line.text? <;> rfl

theorem classify_eq_plain {text : String}
    (unknown : ∀ line : DirectiveLine, line.source = text → ¬ registry.Knows line.path) :
    registry.classify text = .plain text := by
  cases read : Directive.ofLine? text with
  | none => rw [classify, read]
  | some directive =>
      obtain ⟨line, rfl⟩ := DirectiveLine.exists_of_ofLine? read
      have missing := unknown line rfl
      rw [← isSome_resolve?_iff, Option.not_isSome_iff_eq_none] at missing
      rw [classify_source, missing]
      rfl

theorem isDirective_iff (registry : Registry ρ) (text : String) :
    (registry.classify text).isDirective = true ↔
      ∃ line : DirectiveLine, line.source = text ∧ registry.Knows line.path := by
  constructor
  · intro directive
    by_contra none
    rw [classify_eq_plain fun line equal knows => none ⟨line, equal, knows⟩] at directive
    cases directive
  · rintro ⟨line, rfl, knows⟩
    obtain ⟨spec, resolved⟩ := Option.isSome_iff_exists.mp (isSome_resolve?_iff.mpr knows)
    rw [classify_source, resolved]
    exact Line.isDirective_directive spec line.text?

theorem classify_of_not_isDirective {text : String}
    (other : (registry.classify text).isDirective = false) :
    registry.classify text = .plain text := by
  apply classify_eq_plain
  intro line spelled knows
  rw [(registry.isDirective_iff text).mpr ⟨line, spelled, knows⟩] at other
  cases other

end Registry

/-- How a line is told from its spelling. -/
structure Registry.FollowsGrammar (registry : Registry ρ) (text : String) : Prop where
  isDirective_iff : (registry.classify text).isDirective = true ↔
    ∃ line : DirectiveLine, line.source = text ∧ registry.Knows line.path
  directive : ∀ line : DirectiveLine, line.source = text → ∀ filters,
    line.path.filters.map registry.get? = filters.map some →
      registry.classify text = .directive { key := line.path.key, filters } line.text?
  unique : ∀ line other : DirectiveLine, line.source = text → other.source = text →
    line.path = other.path ∧
      Text.trimmed line.remainder = Text.trimmed other.remainder
  unknown : ∀ line : DirectiveLine, line.source = text →
    ∀ name ∈ line.path.filters, registry.get? name = none →
      registry.classify text = .plain text
  plain : (registry.classify text).isDirective = false →
    registry.classify text = .plain text
  margins : (registry.classify text).isDirective = true → ∀ before after : String,
    Text.Blank before.toList → Text.Blank after.toList →
      registry.classify (before ++ text ++ after) = registry.classify text

/-- A line is a directive if and only if it has the form `w₁ @@ w₂ P [w₃ T] w₄` and the
filters on its path are registered. -/
theorem Registry.classify_followsGrammar (registry : Registry ρ) (text : String) :
    registry.FollowsGrammar text where
  isDirective_iff := registry.isDirective_iff text
  directive := by
    rintro line rfl filters found
    have resolved :
        registry.resolve? line.path = some { key := line.path.key, filters } :=
      resolve?_eq_some_iff.mpr ⟨rfl, found⟩
    rw [classify_source, resolved]
    rfl
  unique := by
    rintro line other rfl same
    exact DirectiveLine.path_unique same.symm
  unknown := by
    rintro line rfl name member missing
    apply classify_eq_plain
    intro other same knows
    rw [(DirectiveLine.path_unique same).1] at knows
    have found := knows name member
    rw [Entries.contains, missing] at found
    cases found
  plain := classify_of_not_isDirective
  margins := by
    intro directive before after beforeBlank afterBlank
    obtain ⟨line, rfl, knows⟩ := (registry.isDirective_iff text).mp directive
    obtain ⟨spec, resolved⟩ := Option.isSome_iff_exists.mp (isSome_resolve?_iff.mpr knows)
    have wider := line.source_widen beforeBlank afterBlank
    have resolvedWider :
        registry.resolve? (line.widen beforeBlank afterBlank).path = some spec := resolved
    rw [String.ofList_toList, String.ofList_toList] at wider
    rw [← wider, classify_source, classify_source, resolved, resolvedWider,
      DirectiveLine.text?_widen]
    rfl

end Compositor
