import Mathlib.Data.List.Induction
import Compositor.Proofs.Listing
import Compositor.Proofs.SplitText

namespace Compositor

namespace FileTree

/-- A piece of a path that leads to an entry of a directory. -/
structure IsStep (piece : String) : Prop where
  nonempty : piece ≠ ""
  notHere : piece ≠ "."
  notUp : piece ≠ ".."

variable {tree : FileTree} {followLast : Bool} {links : Nat} {here : Location}
  {piece : String} {rest : List String}

@[simp] theorem follow_nil (tree : FileTree) (followLast : Bool) (links : Nat)
    (here : Location) : tree.follow followLast links here [] = some here := by
  rw [follow]

theorem follow_outside (outside : tree.node? here ≠ some .directory) :
    tree.follow followLast links here (piece :: rest) = none := by
  rw [follow]
  split
  · contradiction
  · rfl

theorem follow_skip (inside : tree.node? here = some .directory)
    (stays : piece = "" ∨ piece = ".") :
    tree.follow followLast links here (piece :: rest) =
      tree.follow followLast links here rest := by
  rw [follow, inside]
  simp [stays]

theorem follow_up (inside : tree.node? here = some .directory) :
    tree.follow followLast links here (".." :: rest) =
      tree.follow followLast links (parent here) rest := by
  rw [follow, inside]
  simp

theorem follow_child (inside : tree.node? here = some .directory) (step : IsStep piece)
    (noLink : ∀ target, tree.node? (here ++ [piece]) ≠ some (.link target)) :
    tree.follow followLast links here (piece :: rest) =
      tree.follow followLast links (here ++ [piece]) rest := by
  rw [follow, inside]
  simp only [step.nonempty, step.notHere, step.notUp]
  -- Where nothing is, only a path that ends there leads anywhere.
  cases child : tree.node? (here ++ [piece]) with
  | none =>
      cases rest with
      | nil => simp
      | cons next others => simp [follow_outside, child]
  | some node =>
      cases node with
      | link target => exact absurd child (noLink target)
      | file content => simp
      | directory => simp

theorem follow_link (inside : tree.node? here = some .directory) (step : IsStep piece)
    {target : String} (link : tree.node? (here ++ [piece]) = some (.link target)) :
    tree.follow followLast links here (piece :: rest) =
      if rest.isEmpty && !followLast then some (here ++ [piece])
      else
        match links with
        | 0 => none
        | links + 1 =>
            if target.isEmpty then none
            else
              tree.follow followLast links (start target here)
                (Path.split target ++ rest) := by
  rw [follow, inside]
  simp only [step.nonempty, step.notHere, step.notUp, link]
  cases links <;> simp

theorem follow_induction (tree : FileTree)
    {motive : Nat → Location → List String → Prop}
    (nil : ∀ links here, motive links here [])
    (outside : ∀ links here piece rest, tree.node? here ≠ some .directory →
      motive links here (piece :: rest))
    (skip : ∀ links here piece rest, tree.node? here = some .directory →
      piece = "" ∨ piece = "." → motive links here rest →
      motive links here (piece :: rest))
    (up : ∀ links here rest, tree.node? here = some .directory →
      motive links (parent here) rest → motive links here (".." :: rest))
    (child : ∀ links here piece rest, tree.node? here = some .directory →
      IsStep piece → (∀ target, tree.node? (here ++ [piece]) ≠ some (.link target)) →
      motive links (here ++ [piece]) rest → motive links here (piece :: rest))
    (link : ∀ links here piece rest target, tree.node? here = some .directory →
      IsStep piece → tree.node? (here ++ [piece]) = some (.link target) →
      (∀ fewer, links = fewer + 1 →
        motive fewer (start target here) (Path.split target ++ rest)) →
      motive links here (piece :: rest))
    (links : Nat) (here : Location) (pieces : List String) :
    motive links here pieces := by
  -- The pieces get fewer, unless a link is followed: then fewer links are left.
  induction links using Nat.strongRecOn generalizing here pieces with
  | _ links withFewer =>
      induction pieces generalizing here with
      | nil => exact nil links here
      | cons piece rest onward =>
          by_cases inside : tree.node? here = some .directory
          · by_cases stays : piece = "" ∨ piece = "."
            · exact skip links here piece rest inside stays (onward here)
            · by_cases above : piece = ".."
              · subst above
                exact up links here rest inside (onward (parent here))
              · rw [not_or] at stays
                have step : IsStep piece := ⟨stays.1, stays.2, above⟩
                by_cases linked :
                    ∃ target, tree.node? (here ++ [piece]) = some (.link target)
                · obtain ⟨target, found⟩ := linked
                  refine link links here piece rest target inside step found ?_
                  rintro fewer rfl
                  exact withFewer fewer (Nat.lt_succ_self fewer) _ _
                · exact child links here piece rest inside step
                    (fun target found => linked ⟨target, found⟩)
                    (onward (here ++ [piece]))
          · exact outside links here piece rest inside

structure SameWays (tree other : FileTree) : Prop where
  directory : ∀ location,
    tree.node? location = some .directory ↔ other.node? location = some .directory
  link : ∀ location target,
    tree.node? location = some (.link target) ↔
      other.node? location = some (.link target)

theorem SameWays.follow_eq {other : FileTree} (same : SameWays tree other)
    (followLast : Bool) (links : Nat) (here : Location) (pieces : List String) :
    tree.follow followLast links here pieces =
      other.follow followLast links here pieces := by
  induction links, here, pieces using follow_induction tree with
  | nil links here => simp
  | outside links here piece rest outside =>
      have outsideOther : other.node? here ≠ some .directory :=
        fun inside => outside ((same.directory here).mpr inside)
      rw [follow_outside outside, follow_outside outsideOther]
  | skip links here piece rest inside stays induction =>
      have insideOther := (same.directory here).mp inside
      rw [follow_skip inside stays, follow_skip insideOther stays, induction]
  | up links here rest inside induction =>
      have insideOther := (same.directory here).mp inside
      rw [follow_up inside, follow_up insideOther, induction]
  | child links here piece rest inside step noLink induction =>
      have insideOther := (same.directory here).mp inside
      have noLinkOther target :
          other.node? (here ++ [piece]) ≠ some (.link target) :=
        fun link => noLink target ((same.link _ target).mpr link)
      rw [follow_child inside step noLink, follow_child insideOther step noLinkOther,
        induction]
  | link links here piece rest target inside step link induction =>
      have insideOther := (same.directory here).mp inside
      have linkOther := (same.link _ target).mp link
      rw [follow_link inside step link, follow_link insideOther step linkOther]
      cases links with
      | zero => rfl
      | succ fewer =>
          dsimp only
          rw [induction fewer rfl]

/-- A path that goes on is followed to where its first part leads, links included, and
then onward. -/
theorem exists_follow_append (tree : FileTree) (followLast : Bool)
    {more : List String} (onward : more ≠ []) (links : Nat) (here : Location)
    (pieces : List String) :
    ∃ left, tree.follow followLast links here (pieces ++ more) =
      (tree.follow true links here pieces).bind fun place =>
        tree.follow followLast left place more := by
  induction links, here, pieces using follow_induction tree with
  | nil links here => exact ⟨links, by simp⟩
  | outside links here piece rest outside =>
      refine ⟨links, ?_⟩
      rw [List.cons_append, follow_outside outside, follow_outside outside]
      rfl
  | skip links here piece rest inside stays induction =>
      rw [List.cons_append, follow_skip inside stays, follow_skip inside stays]
      exact induction
  | up links here rest inside induction =>
      rw [List.cons_append, follow_up inside, follow_up inside]
      exact induction
  | child links here piece rest inside step noLink induction =>
      rw [List.cons_append, follow_child inside step noLink,
        follow_child inside step noLink]
      exact induction
  | link links here piece rest target inside step link induction =>
      rw [List.cons_append, follow_link inside step link, follow_link inside step link]
      cases links with
      | zero => exact ⟨0, by simp [onward]⟩
      | succ fewer =>
          obtain ⟨left, followed⟩ := induction fewer rfl
          refine ⟨left, ?_⟩
          rw [List.append_assoc] at followed
          by_cases nowhere : target = "" <;> simp [onward, nowhere, followed]

theorem follow_of_follow_true {place : Location} {pieces : List String}
    (followed : tree.follow true links here pieces = some place) :
    tree.follow false links here pieces = some place ∨
      ∃ location target, tree.follow false links here pieces = some location ∧
        tree.node? location = some (.link target) := by
  induction links, here, pieces using follow_induction tree with
  | nil links here => exact .inl (by simpa using followed)
  | outside links here piece rest outside =>
      rw [follow_outside outside] at followed
      cases followed
  | skip links here piece rest inside stays induction =>
      rw [follow_skip inside stays] at followed ⊢
      exact induction followed
  | up links here rest inside induction =>
      rw [follow_up inside] at followed ⊢
      exact induction followed
  | child links here piece rest inside step noLink induction =>
      rw [follow_child inside step noLink] at followed ⊢
      exact induction followed
  | link links here piece rest target inside step link induction =>
      rw [follow_link inside step link] at followed ⊢
      cases rest with
      | nil => exact .inr ⟨here ++ [piece], target, rfl, link⟩
      | cons next others =>
          cases links with
          | zero => cases followed
          | succ fewer =>
              by_cases nowhere : target = ""
              · simp [nowhere] at followed
              · simp only [List.isEmpty_cons, Bool.false_and, Bool.not_true,
                  Bool.and_false, Bool.false_eq_true, if_false, String.isEmpty_iff,
                  nowhere] at followed ⊢
                exact induction fewer rfl followed

end FileTree

/-- The names that directories give to their entries. -/
structure IsFileName (name : String) : Prop where
  step : FileTree.IsStep name
  noSlash : '/' ∉ name.toList

namespace Path

theorem split_append_slash (first second : String) :
    split (first ++ "/" ++ second) = split first ++ split second := by
  have chars : (first ++ "/" ++ second).toList =
      first.toList ++ '/' :: second.toList := by
    simp
  simp only [split, Text.splitAt_eq_splitOn, List.splitOn_eq_splitOnP, chars]
  rw [List.splitOnP_append_cons (p := (· == '/')) _ _ (beq_self_eq_true '/'),
    List.map_append]

theorem split_empty : split "" = [""] := rfl

theorem split_intercalate {names : List String} (deeper : names ≠ [])
    (noSlash : ∀ name ∈ names, '/' ∉ name.toList) :
    split ("/".intercalate names) = names := by
  rw [split, String.toList_intercalate]
  change (Text.splitAt '/' (['/'].intercalate _)).map String.ofList = names
  rw [Text.splitAt_intercalate deeper noSlash, List.map_map]
  simp

theorem below_of_slash (stem : String) (names : List String) :
    below (stem ++ "/") names = stem ++ "/" ++ "/".intercalate names := by
  simp [below]

theorem below_of_noSlash {root : String} (noSlash : root.toList.getLast? ≠ some '/')
    (names : List String) :
    below root names = root ++ "/" ++ "/".intercalate names := by
  rw [below, if_neg noSlash]

theorem exists_of_getLast? {root : String} (slash : root.toList.getLast? = some '/') :
    ∃ stem, root = stem ++ "/" := by
  obtain ⟨stem, chars⟩ := List.getLast?_eq_some_iff.mp slash
  refine ⟨String.ofList stem, ?_⟩
  rw [← String.toList_inj]
  simp [chars]

theorem exists_below_eq (root : String) (names : List String) :
    ∃ rest, below root names = root ++ rest := by
  unfold below
  split
  · exact ⟨_, rfl⟩
  · exact ⟨_, String.append_assoc ..⟩

theorem below_ne_empty {root : String} (nonempty : root ≠ "") (names : List String) :
    below root names ≠ "" := by
  obtain ⟨rest, whole⟩ := exists_below_eq root names
  rw [whole]
  simp [nonempty]

theorem start_below {root : String} (nonempty : root ≠ "") (names : List String)
    (base : Location) :
    FileTree.start (below root names) base = FileTree.start root base := by
  obtain ⟨rest, whole⟩ := exists_below_eq root names
  have chars : root.toList ≠ [] := by simpa using nonempty
  obtain ⟨first, others, chars⟩ := List.exists_cons_of_ne_nil chars
  simp [FileTree.start, whole, chars]

end Path

namespace FileTree

variable {tree : FileTree} {place : Location} {names : List String} {root : String}

/-- Every entry is under a name in a directory, as a file system keeps them. -/
def WellFormed (tree : FileTree) : Prop :=
  ∀ location node, (location, node) ∈ tree.nodes →
    ∃ above name, location = above ++ [name] ∧ IsFileName name ∧
      tree.node? above = some .directory

theorem WellFormed.node?_eq (wellFormed : tree.WellFormed) {location : Location}
    {node : Node} (stored : (location, node) ∈ tree.nodes) :
    tree.node? location = some node := by
  rw [tree.node?_eq_some_iff ?_]
  · exact stored
  · obtain ⟨above, name, rfl, fileName, -⟩ := wellFormed _ _ stored
    have notRoot : name ≠ "/" := by
      rintro rfl
      exact fileName.noSlash (by simp)
    simp [isAlwaysThere, fileName.step.notUp, notRoot]

theorem not_isAlwaysThere (deeper : names ≠ [])
    (down : ∀ name ∈ names.head?, name ≠ ".." ∧ name ≠ "/") :
    isAlwaysThere (place ++ names) = false := by
  cases names with
  | nil => contradiction
  | cons name rest =>
      obtain ⟨notUp, notRoot⟩ := down name rfl
      simp [isAlwaysThere, notUp, notRoot]

/-- Names that lead down from a place through directories. -/
inductive Descends (tree : FileTree) (place : Location) : List String → Prop
  | here : Descends tree place []
  | into {names : List String} {name : String} (descends : Descends tree place names)
      (inside : tree.node? (place ++ names) = some .directory)
      (fileName : IsFileName name) : Descends tree place (names ++ [name])

theorem WellFormed.descends (wellFormed : tree.WellFormed) {node : Node}
    (down : ∀ name ∈ names.head?, name ≠ ".." ∧ name ≠ "/")
    (found : tree.node? (place ++ names) = some node) : Descends tree place names := by
  induction names using List.reverseRecOn generalizing node with
  | nil => exact .here
  | append_singleton names name induction =>
      rw [tree.node?_eq_some_iff (not_isAlwaysThere (by simp) down),
        ← List.append_assoc] at found
      obtain ⟨above, last, same, fileName, inside⟩ := wellFormed _ _ found
      obtain ⟨rfl, names_eq⟩ := List.append_inj' same rfl
      obtain rfl := List.singleton_inj.mp names_eq
      refine .into (induction ?_ inside) inside fileName
      intro first member
      exact down first (by simp [Option.mem_def.mp member])

theorem Descends.isFileName (descends : Descends tree place names) :
    ∀ name ∈ names, IsFileName name := by
  induction descends with
  | here => exact List.forall_mem_nil _
  | into _ _ fileName induction =>
      exact List.forall_mem_append.mpr
        ⟨induction, List.forall_mem_singleton.mpr fileName⟩

theorem Descends.follow_eq (descends : Descends tree place names)
    (notLink : ∀ target, tree.node? (place ++ names) ≠ some (.link target))
    (followLast : Bool) (links : Nat) :
    tree.follow followLast links place names = some (place ++ names) := by
  induction descends generalizing followLast links with
  | here => simp
  | @into names name descends inside fileName induction =>
      obtain ⟨left, followed⟩ := tree.exists_follow_append followLast
        (List.cons_ne_nil name []) links place names
      have before := induction (by simp [inside]) true links
      rw [← List.append_assoc] at notLink ⊢
      rw [followed, before, Option.bind_some, follow_child inside fileName.step notLink,
        follow_nil]

theorem locate?_eq_some_iff {path : String} {followLast : Bool} {location : Location} :
    tree.locate? path followLast = some location ↔
      path ≠ "" ∧
      tree.follow followLast linkLimit (start path []) (Path.split path) =
        some location ∧
      (tree.node? location).isSome = true := by
  by_cases nowhere : path = ""
  · simp [locate?, nowhere]
  · simp [locate?, nowhere, Option.bind_eq_some_iff]

/-- A root is a directory, or a link that leads to one. -/
structure OpensAt (tree : FileTree) (root : String) (place : Location) : Prop where
  located : tree.locate? root = some place
  inside : tree.node? place = some .directory

theorem OpensAt.walk?_eq (opens : tree.OpensAt root place) :
    tree.walk? root = some ((tree.filesBelow place).map (Path.below root)) := by
  obtain ⟨nonempty, followed, -⟩ := locate?_eq_some_iff.mp opens.located
  rcases follow_of_follow_true followed with here | ⟨location, target, here, link⟩
  · have located : tree.locate? root false = some place :=
      locate?_eq_some_iff.mpr ⟨nonempty, here, by simp [opens.inside]⟩
    simp [walk?, located, opens.inside]
  · have located : tree.locate? root false = some location :=
      locate?_eq_some_iff.mpr ⟨nonempty, here, by simp [link]⟩
    simp [walk?, located, link, opens.located, opens.inside]

theorem exists_split_below {links : Nat} {here : Location}
    (followed : tree.follow true links here (Path.split root) = some place) :
    ∃ pieces, tree.follow true links here pieces = some place ∧
      ∀ names, Path.split (Path.below root names) =
        pieces ++ Path.split ("/".intercalate names) := by
  by_cases slash : root.toList.getLast? = some '/'
  · -- Its last piece is empty, and so stays where the others lead.
    obtain ⟨stem, rfl⟩ := Path.exists_of_getLast? slash
    refine ⟨Path.split stem, ?_, fun names => ?_⟩
    · have pieces : Path.split (stem ++ "/") = Path.split stem ++ [""] := by
        simpa [Path.split_empty] using Path.split_append_slash stem ""
      obtain ⟨left, onward⟩ := tree.exists_follow_append true
        (List.cons_ne_nil "" []) links here (Path.split stem)
      rw [pieces, onward, Option.bind_eq_some_iff] at followed
      obtain ⟨stop, before, last⟩ := followed
      by_cases inside : tree.node? stop = some .directory
      · rw [follow_skip inside (.inl rfl), follow_nil] at last
        rw [before, last]
      · rw [follow_outside inside] at last
        cases last
    · rw [Path.below_of_slash, Path.split_append_slash]
  · refine ⟨Path.split root, followed, fun names => ?_⟩
    rw [Path.below_of_noSlash slash, Path.split_append_slash]

theorem OpensAt.descends_of_file (opens : tree.OpensAt root place)
    (wellFormed : tree.WellFormed) {content : ByteArray}
    (below : tree.Below place names (.file content)) :
    Descends tree place names ∧ names ≠ [] := by
  have found := wellFormed.node?_eq below.stored
  refine ⟨wellFormed.descends below.down found, ?_⟩
  rintro rfl
  rw [List.append_nil, opens.inside] at found
  cases found

theorem Descends.split_names (descends : Descends tree place names)
    (deeper : names ≠ []) : Path.split ("/".intercalate names) = names :=
  Path.split_intercalate deeper fun name member =>
    (descends.isFileName name member).noSlash

theorem OpensAt.locate?_below (opens : tree.OpensAt root place)
    (descends : Descends tree place names) (deeper : names ≠ []) {content : ByteArray}
    (found : tree.node? (place ++ names) = some (.file content)) :
    tree.locate? (Path.below root names) = some (place ++ names) := by
  obtain ⟨nonempty, followed, -⟩ := locate?_eq_some_iff.mp opens.located
  obtain ⟨pieces, before, split⟩ := exists_split_below followed
  obtain ⟨left, onward⟩ :=
    tree.exists_follow_append true deeper linkLimit (start root []) pieces
  refine locate?_eq_some_iff.mpr
    ⟨Path.below_ne_empty nonempty names, ?_, by simp [found]⟩
  rw [Path.start_below nonempty, split, descends.split_names deeper, onward, before,
    Option.bind_some, descends.follow_eq (by simp [found])]

theorem OpensAt.readText?_below (opens : tree.OpensAt root place)
    (wellFormed : tree.WellFormed) {content : ByteArray}
    (below : tree.Below place names (.file content)) :
    tree.readText? (Path.below root names) = String.fromUTF8? content := by
  have found := wellFormed.node?_eq below.stored
  obtain ⟨descends, deeper⟩ := opens.descends_of_file wellFormed below
  rw [readText?, opens.locate?_below descends deeper found]
  simp [found]

theorem OpensAt.paths_nodup (opens : tree.OpensAt root place)
    (wellFormed : tree.WellFormed) :
    ((tree.filesBelow place).map (Path.below root)).Nodup := by
  obtain ⟨-, followed, -⟩ := locate?_eq_some_iff.mp opens.located
  obtain ⟨pieces, -, split⟩ := exists_split_below followed
  have split_file (names : List String) (member : names ∈ tree.filesBelow place) :
      Path.split (Path.below root names) = pieces ++ names := by
    obtain ⟨content, below⟩ := (tree.mem_filesBelow_iff place names).mp member
    obtain ⟨descends, deeper⟩ := opens.descends_of_file wellFormed below
    rw [split, descends.split_names deeper]
  refine List.Nodup.map_on ?_ (tree.filesBelow_nodup place)
  intro first member second memberSecond same
  have pieces_eq := congrArg Path.split same
  rw [split_file first member, split_file second memberSecond] at pieces_eq
  exact List.append_cancel_left pieces_eq

/-! Two trees. -/

theorem node?_perm {other : FileTree} (permuted : other.nodes.Perm tree.nodes) :
    other.node? = tree.node? :=
  funext (node?_ext fun _ => permuted.mem_iff)

theorem locate?_perm {other : FileTree} (permuted : other.nodes.Perm tree.nodes)
    (path : String) (followLast : Bool) :
    other.locate? path followLast = tree.locate? path followLast := by
  have nodes := node?_perm permuted
  have same : SameWays other tree := ⟨by simp [nodes], by simp [nodes]⟩
  rw [locate?, locate?, same.follow_eq, nodes]

theorem walk?_perm {other : FileTree} (permuted : other.nodes.Perm tree.nodes) :
    other.walk? root = tree.walk? root := by
  simp only [walk?, locate?_perm permuted, node?_perm permuted, filesBelow_perm permuted]

theorem readText?_perm {other : FileTree} (permuted : other.nodes.Perm tree.nodes)
    (path : String) : other.readText? path = tree.readText? path := by
  rw [readText?, readText?, locate?_perm permuted, node?_perm permuted]

theorem OpensAt.of_sameWays (opens : tree.OpensAt root place) {other : FileTree}
    (same : SameWays tree other) : other.OpensAt root place := by
  obtain ⟨nonempty, followed, -⟩ := locate?_eq_some_iff.mp opens.located
  have inside := (same.directory place).mp opens.inside
  refine ⟨locate?_eq_some_iff.mpr ⟨nonempty, ?_, by simp [inside]⟩, inside⟩
  rw [← same.follow_eq, followed]

theorem node?_removeWhere_eq_some_iff {drop : Location → Bool} {location : Location}
    (placed : isAlwaysThere location = false) {node : Node} :
    (tree.removeWhere drop).node? location = some node ↔
      tree.node? location = some node ∧ drop location = false := by
  rw [node?_eq_some_iff _ placed, node?_eq_some_iff _ placed]
  simp [removeWhere]

theorem sameWays_removeWhere {drop : Location → Bool}
    (onlyFiles : ∀ location, drop location = true →
      ∃ content, tree.node? location = some (.file content)) :
    SameWays tree (tree.removeWhere drop) := by
  have kept (location : Location) (node : Node)
      (notFile : ∀ content, node ≠ .file content) :
      tree.node? location = some node ↔
        (tree.removeWhere drop).node? location = some node := by
    cases placed : isAlwaysThere location with
    | true => rw [node?, node?, placed, if_pos rfl, if_pos rfl]
    | false =>
        rw [node?_removeWhere_eq_some_iff placed, iff_self_and]
        intro found
        by_contra dropped
        obtain ⟨content, file⟩ := onlyFiles location (by simpa using dropped)
        rw [found, Option.some_inj] at file
        exact notFile content file
  constructor
  · intro location
    exact kept location .directory (by simp)
  · intro location target
    exact kept location (.link target) (by simp)

theorem WellFormed.removeWhere (wellFormed : tree.WellFormed) {drop : Location → Bool}
    (onlyFiles : ∀ location, drop location = true →
      ∃ content, tree.node? location = some (.file content)) :
    (tree.removeWhere drop).WellFormed := by
  intro location node stored
  obtain ⟨above, name, same, fileName, inside⟩ :=
    wellFormed location node (List.mem_filter.mp stored).1
  exact ⟨above, name, same, fileName,
    ((sameWays_removeWhere onlyFiles).directory above).mp inside⟩

theorem Below.removeWhere {node : Node} (below : tree.Below place names node)
    {drop : Location → Bool} (kept : drop (place ++ names) = false) :
    (tree.removeWhere drop).Below place names node :=
  ⟨List.mem_filter.mpr ⟨below.stored, by simp [kept]⟩, below.down⟩

end FileTree

end Compositor
