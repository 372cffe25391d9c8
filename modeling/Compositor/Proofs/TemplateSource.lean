import Mathlib.Data.List.Chain
import Compositor.Document
import Compositor.Proofs.SplitText

namespace Compositor

namespace Template

/-- Text as it stands in the source of a template, with each `$` doubled. -/
def escape (text : List Char) : List Char :=
  text.flatMap fun c => if c = '$' then ['$', '$'] else [c]

def pathSource (path : List String) : List Char :=
  ['.'].intercalate (path.map String.toList)

end Template

namespace Segment

def source : Segment → List Char
  | .literal text => Template.escape text.toList
  | .placeholder path => '$' :: (Template.pathSource path ++ ['$'])

def isLiteral : Segment → Bool
  | .literal _ => true
  | .placeholder _ => false

/-- There is some text, or a path of one or more names. -/
def Normal : Segment → Prop
  | .literal text => text ≠ ""
  | .placeholder path => path ≠ [] ∧ ∀ name ∈ path, Text.IsName name.toList

instance (segment : Segment) : Decidable segment.Normal :=
  match segment with
  | .literal _ => inferInstanceAs (Decidable (_ ≠ _))
  | .placeholder _ => inferInstanceAs (Decidable (_ ∧ _))

end Segment

namespace Template

def source (template : Template) : String :=
  String.ofList (template.segments.flatMap Segment.source)

/-- Two pieces of text that meet would be one. -/
structure Normal (template : Template) : Prop where
  each : ∀ segment ∈ template.segments, segment.Normal
  apart : template.segments.IsChain fun first second =>
    ¬ (first.isLiteral = true ∧ second.isLiteral = true)

instance (template : Template) : Decidable template.Normal :=
  decidable_of_iff (_ ∧ _) ⟨fun ⟨each, apart⟩ => ⟨each, apart⟩, fun normal =>
    ⟨normal.each, normal.apart⟩⟩

/-! Reading a source. -/

theorem scan_nil : scan [] = [] := by
  rw [scan]

theorem scan_dollars (rest : List Char) :
    scan ('$' :: '$' :: rest) = .char '$' :: scan rest := by
  rw [scan]

theorem scan_char {c : Char} (plain : c ≠ '$') (rest : List Char) :
    scan (c :: rest) = .char c :: scan rest := by
  rw [scan]
  · intro _ dollar
    exact absurd dollar plain
  · exact plain

theorem readPath?_dollar (rest : List Char) : readPath? ('$' :: rest) = none := by
  simp [readPath?, isPathChar, Text.isNameChar, Text.splitAt]

theorem scan_placeholder {text after : List Char} {path : List String}
    (read : readPath? text = some (path, after)) :
    scan ('$' :: text) = .placeholder path :: scan after := by
  rw [scan]
  · split
    · rename_i found
      cases found.symm.trans read
      rfl
    · rename_i missing
      cases missing.symm.trans read
  · rintro rest rfl
    rw [readPath?_dollar] at read
    cases read

theorem isPathChar_of_mem_pathSource {path : List String}
    (names : ∀ name ∈ path, Text.IsName name.toList) :
    ∀ c ∈ pathSource path, isPathChar c = true := by
  apply Text.forall_mem_intercalate
  · rfl
  · intro name member c within
    rw [isPathChar, (names name member).2 c within, Bool.true_or]

theorem readPath?_pathSource {path : List String} (nonempty : path ≠ [])
    (names : ∀ name ∈ path, Text.IsName name.toList) (rest : List Char) :
    readPath? (pathSource path ++ '$' :: rest) = some (path, rest) := by
  have chars := isPathChar_of_mem_pathSource names
  have dropped : (pathSource path ++ '$' :: rest).dropWhile isPathChar = '$' :: rest := by
    rw [List.dropWhile_append_of_pos chars]
    rfl
  have taken : (pathSource path ++ '$' :: rest).takeWhile isPathChar =
      pathSource path := by
    rw [List.takeWhile_append_of_pos chars]
    exact List.append_nil _
  have pieces : Text.splitAt '.' (pathSource path) = path.map String.toList := by
    apply Text.splitAt_intercalate nonempty
    intro name member point
    exact absurd ((names name member).2 '.' point) (by decide)
  have filled : ((path.map String.toList).all fun name => !name.isEmpty) = true := by
    rw [List.all_eq_true]
    intro piece member
    obtain ⟨name, among, rfl⟩ := List.mem_map.mp member
    simpa using (names name among).1
  simp only [readPath?, dropped, taken, pieces, filled, if_true, List.map_map]
  simp

theorem normal_of_readPath? {text rest : List Char} {path : List String}
    (read : readPath? text = some (path, rest)) : (Segment.placeholder path).Normal := by
  unfold readPath? at read
  split at read
  · dsimp only at read
    split at read
    · rename_i filled
      cases read
      refine ⟨by simpa using Text.splitAt_ne_nil '.' _, ?_⟩
      intro name member
      obtain ⟨piece, among, rfl⟩ := List.mem_map.mp member
      rw [String.toList_ofList]
      refine ⟨by simpa using List.all_eq_true.mp filled piece among, ?_⟩
      intro c within
      obtain ⟨taken, notPoint⟩ := Text.of_mem_splitAt among within
      have pathChar : isPathChar c = true :=
        List.all_eq_true.mp List.all_takeWhile c taken
      simpa [isPathChar, notPoint] using pathChar
    · cases read
  · cases read

/-! Joining what was read. -/

def Mark.Normal : Mark → Prop
  | .char _ => True
  | .placeholder path => (Segment.placeholder path).Normal

theorem normal_of_mem_scan {text : List Char} {mark : Mark} (member : mark ∈ scan text) :
    mark.Normal := by
  fun_induction scan text with
  | case1 => cases member
  | case2 rest induction =>
      rcases List.mem_cons.mp member with rfl | later
      · trivial
      · exact induction later
  | case3 text _ path after read _ induction =>
      rcases List.mem_cons.mp member with rfl | later
      · exact normal_of_readPath? read
      · exact induction later
  | case4 text _ _ induction =>
      rcases List.mem_cons.mp member with rfl | later
      · trivial
      · exact induction later
  | case5 c rest _ _ induction =>
      rcases List.mem_cons.mp member with rfl | later
      · trivial
      · exact induction later

/-- Segments in normal form with no text in front, so that other text may come there. -/
structure Detached (segments : List Segment) : Prop where
  normal : Normal ⟨segments⟩
  first : ∀ segment ∈ segments.head?, segment.isLiteral = false

theorem Detached.normal_flush {segments : List Segment} (detached : Detached segments)
    (text : List Char) : Normal ⟨flush text segments⟩ := by
  unfold flush
  split
  · exact detached.normal
  · rename_i filled
    have literal : (Segment.literal (String.ofList text)).Normal := by
      change String.ofList text ≠ ""
      simpa using filled
    refine ⟨List.forall_mem_cons.mpr ⟨literal, detached.normal.each⟩, ?_⟩
    refine detached.normal.apart.cons ?_
    rintro next member ⟨-, meets⟩
    rw [detached.first next member] at meets
    cases meets

theorem gather_detached {marks : List Mark} (normal : ∀ mark ∈ marks, mark.Normal) :
    Detached (gather marks).2 := by
  induction marks with
  | nil => exact ⟨⟨List.forall_mem_nil _, .nil⟩, nofun⟩
  | cons mark rest induction =>
      obtain ⟨first, others⟩ := List.forall_mem_cons.mp normal
      cases mark with
      | char c => exact induction others
      | placeholder path =>
          have joined := (induction others).normal_flush (gather rest).1
          refine ⟨⟨List.forall_mem_cons.mpr ⟨first, joined.each⟩, ?_⟩, ?_⟩
          · exact joined.apart.cons fun _ _ meets => Bool.false_ne_true meets.1
          · rintro segment ⟨⟩
            rfl

theorem normal_compile (source : String) : (compile source).Normal :=
  (gather_detached fun _ => normal_of_mem_scan).normal_flush _

theorem flush_toList {text : String} (filled : text ≠ "") (segments : List Segment) :
    flush text.toList segments = .literal text :: segments := by
  have some : text.toList.isEmpty = false := by simpa using filled
  simp [flush, some]

theorem gather_char_append (text : List Char) (marks : List Mark) :
    gather (text.map .char ++ marks) = (text ++ (gather marks).1, (gather marks).2) := by
  induction text with
  | nil => rfl
  | cons c rest induction => rw [List.map_cons, List.cons_append, gather, induction]; rfl

end Template

/-! Writing segments and reading them again. -/

/-- What a segment is read as, mark by mark. -/
def Segment.marks : Segment → List Template.Mark
  | .literal text => text.toList.map .char
  | .placeholder path => [.placeholder path]

namespace Template

theorem scan_escape_append (text rest : List Char) :
    scan (escape text ++ rest) = text.map .char ++ scan rest := by
  induction text with
  | nil => rfl
  | cons c text induction =>
      by_cases dollar : c = '$'
      · subst dollar
        exact (scan_dollars _).trans (congrArg (Mark.char '$' :: ·) induction)
      · have plain : escape (c :: text) = c :: escape text := by
          simp [escape, dollar]
        rw [plain, List.cons_append, scan_char dollar, induction]
        rfl

theorem scan_source_append {segment : Segment} (normal : segment.Normal)
    (rest : List Char) :
    scan (segment.source ++ rest) = segment.marks ++ scan rest := by
  cases segment with
  | literal text => exact scan_escape_append text.toList rest
  | placeholder path =>
      have read := readPath?_pathSource normal.1 normal.2 rest
      rw [Segment.source, List.cons_append, List.append_assoc, List.singleton_append,
        scan_placeholder read]
      rfl

theorem scan_flatMap_source {segments : List Segment}
    (normal : ∀ segment ∈ segments, segment.Normal) :
    scan (segments.flatMap Segment.source) = segments.flatMap Segment.marks := by
  induction segments with
  | nil => exact scan_nil
  | cons segment rest induction =>
      obtain ⟨first, others⟩ := List.forall_mem_cons.mp normal
      rw [List.flatMap_cons, List.flatMap_cons, scan_source_append first,
        induction others]

theorem gather_marks_of_head? {segments : List Segment}
    (first : ∀ segment ∈ segments.head?, segment.isLiteral = false) :
    (gather (segments.flatMap Segment.marks)).1 = [] := by
  cases segments with
  | nil => rfl
  | cons segment rest =>
      cases segment with
      | literal text => cases first _ rfl
      | placeholder path => rfl

theorem flush_gather_marks {segments : List Segment} (normal : Normal ⟨segments⟩) :
    flush (gather (segments.flatMap Segment.marks)).1
      (gather (segments.flatMap Segment.marks)).2 = segments := by
  induction segments with
  | nil => rfl
  | cons segment rest induction =>
      obtain ⟨first, others⟩ := List.forall_mem_cons.mp normal.each
      obtain ⟨meets, apart⟩ := List.isChain_cons.mp normal.apart
      have joined := induction ⟨others, apart⟩
      cases segment with
      | placeholder path => exact congrArg (Segment.placeholder path :: ·) joined
      | literal text =>
          -- No other text follows, so none is joined to this one.
          have head : ∀ next ∈ rest.head?, next.isLiteral = false := by
            intro next member
            simpa [Segment.isLiteral] using meets next member
          rw [gather_marks_of_head? head] at joined
          rw [List.flatMap_cons, Segment.marks, gather_char_append,
            gather_marks_of_head? head, List.append_nil, flush_toList first]
          exact congrArg (Segment.literal text :: ·) joined

theorem compile_source {template : Template} (normal : template.Normal) :
    compile template.source = template := by
  rw [compile, source, String.toList_ofList, scan_flatMap_source normal.each]
  exact congrArg Template.mk (flush_gather_marks normal)

theorem apply_compile_escape {ρ : Type} (text : String) (document : Document ρ) :
    (compile (String.ofList (escape text.toList))).apply document = text := by
  have read := scan_escape_append text.toList []
  rw [List.append_nil, scan_nil] at read
  rw [compile, String.toList_ofList, read, ofMarks, gather_char_append]
  change apply ⟨flush (text.toList ++ []) []⟩ document = text
  rw [List.append_nil]
  by_cases empty : text = ""
  · rw [empty]
    rfl
  · rw [flush_toList empty]
    simp [apply, Segment.apply]

/-- The templates in normal form are those that a source is read as, and writing one
gives a source of it. Text with its `$` doubled stands for itself. -/
theorem source_roundTrip {ρ : Type} :
    (∀ template : Template, compile template.source = template ↔ template.Normal) ∧
    (∀ source : String, (compile source).Normal ∧
      compile (compile source).source = compile source) ∧
    ∀ (text : String) (document : Document ρ),
      (compile (String.ofList (escape text.toList))).apply document = text := by
  refine ⟨?_, ?_, apply_compile_escape⟩
  · intro template
    refine ⟨?_, compile_source⟩
    intro read
    rw [← read]
    exact normal_compile template.source
  · intro source
    exact ⟨normal_compile source, compile_source (normal_compile source)⟩

/-- Two texts side by side would be read as one. -/
example : ¬ Normal ⟨[.literal "a$", .literal "b"]⟩ := by decide

/-- A `$` is taken by the first placeholder that it fits. -/
example : compile "$a$b$ $$c.$d.e$" =
    ⟨[.placeholder ["a"], .literal "b$ $c.", .placeholder ["d", "e"]]⟩ := by
  decide +kernel

end Template

end Compositor
