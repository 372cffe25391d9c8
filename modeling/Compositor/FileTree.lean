import Compositor.Path

namespace Compositor

/-- The names that lead to an entry from the working directory. -/
abbrev Location := List String

inductive Node where
  | file (content : ByteArray)
  | directory
  | link (target : String)

instance : Inhabited Node := ⟨.directory⟩

/-- The entries that paths lead to from a working directory. -/
structure FileTree where
  nodes : List (Location × Node)
  distinct : (nodes.map Prod.fst).Nodup

namespace FileTree

def empty : FileTree := ⟨[], List.nodup_nil⟩

/-- The working directory, those above it and the root of the file system are
always there. -/
def isAlwaysThere (location : Location) : Bool :=
  location.all fun name => name = ".." || name = "/"

def node? (tree : FileTree) (location : Location) : Option Node :=
  if isAlwaysThere location then some .directory else tree.nodes.lookup location

def removeWhere (tree : FileTree) (drop : Location → Bool) : FileTree where
  nodes := tree.nodes.filter fun entry => !drop entry.1
  distinct := tree.distinct.sublist (List.filter_sublist.map Prod.fst)

def put (tree : FileTree) (location : Location) (node : Node) : FileTree where
  nodes := (tree.removeWhere (· = location)).nodes ++ [(location, node)]
  distinct := by
    rw [List.map_append, List.nodup_append]
    refine ⟨(tree.removeWhere _).distinct, by simp, ?_⟩
    intro first kept second added
    obtain ⟨entry, member, rfl⟩ := List.mem_map.mp kept
    have other := (List.mem_filter.mp member).2
    rw [List.map_singleton, List.mem_singleton] at added
    simpa [added] using other

/-- The parent of the working directory has a name of its own. -/
def parent (location : Location) : Location :=
  match location.getLast? with
  | none => [".."]
  | some ".." => location ++ [".."]
  | some "/" => location
  | some _ => location.dropLast

/-- Absolute paths start at an entry named by a slash. -/
def start (path : String) (base : Location) : Location :=
  if path.toList.head? = some '/' then ["/"] else base

/-- Follows the pieces of a path, to a place where something is or could be made.
At most `links` links are followed; one at the end only if `followLast` says so. -/
def follow (tree : FileTree) (followLast : Bool) (links : Nat) (here : Location)
    (pieces : List String) : Option Location :=
  match pieces with
  | [] => some here
  | piece :: rest =>
      match tree.node? here with
      | some .directory =>
          if piece = "" || piece = "." then tree.follow followLast links here rest
          else if piece = ".." then tree.follow followLast links (parent here) rest
          else
            let child := here ++ [piece]
            match tree.node? child with
            | none => if rest.isEmpty then some child else none
            | some (.link target) =>
                if rest.isEmpty && !followLast then some child
                else
                  match links with
                  | 0 => none
                  | links + 1 =>
                      if target.isEmpty then none
                      else
                        tree.follow followLast links (start target here)
                          (Path.split target ++ rest)
            | some _ => tree.follow followLast links child rest
      | _ => none
termination_by (links, pieces.length)

def linkLimit : Nat := 40

def locate? (tree : FileTree) (path : String) (followLast : Bool := true) :
    Option Location :=
  if path.isEmpty then none
  else do
    let location ← tree.follow followLast linkLimit (start path []) (Path.split path)
    if (tree.node? location).isSome then pure location else none

def readText? (tree : FileTree) (path : String) : Option String := do
  let location ← tree.locate? path
  match tree.node? location with
  | some (.file content) => String.fromUTF8? content
  | _ => none

/-- The names that lead down from a location to another one. -/
def namesDown? (location other : Location) : Option (List String) :=
  if location.isPrefixOf other then
    match other.drop location.length with
    | ".." :: _ => none
    | "/" :: _ => none
    | names => some names
  else none

/-- The names of the files below a location, in order. Links are not followed. -/
def filesBelow (tree : FileTree) (location : Location) : List (List String) :=
  let below := tree.nodes.filterMap fun entry =>
    match entry.2 with
    | .file _ => namesDown? location entry.1
    | _ => none
  below.mergeSort Path.inOrder

/-- The files at or below a root, in the order of their names. A link at the
root itself is followed to a directory. -/
def walk? (tree : FileTree) (root : String) : Option (List String) := do
  let listing (location : Location) : List String :=
    (tree.filesBelow location).map (Path.below root)
  let location ← tree.locate? root false
  match tree.node? location with
  | some (.file _) => pure [root]
  | some .directory => pure (listing location)
  | _ =>
      let target ← tree.locate? root
      match tree.node? target with
      | some .directory => pure (listing target)
      | _ => pure []

/-! Changes. -/

/-- Goes into a directory, which is made if nothing is there. -/
def enter (state : FileTree × Location) (name : String) : FileTree × Location :=
  let (tree, here) := state
  if name = ".." then (tree, parent here)
  else
    let child := here ++ [name]
    match tree.node? child with
    | none => (tree.put child .directory, child)
    | some _ => (tree, (tree.follow true linkLimit here [name]).getD child)

/-- Puts a node at a path and makes the directories above it. A file goes where
a link at its path leads. -/
def write (tree : FileTree) (path : String) (node : Node) : FileTree :=
  match (Path.names path).getLast? with
  | none => tree
  | some name =>
      let (tree, here) := (Path.names path).dropLast.foldl enter (tree, start path [])
      let location :=
        match node with
        | .file _ => (tree.follow true linkLimit here [name]).getD (here ++ [name])
        | _ => here ++ [name]
      tree.put location node

def remove (tree : FileTree) (path : String) : FileTree :=
  match tree.locate? path false with
  | none => tree
  | some location => tree.removeWhere fun other => (namesDown? location other).isSome

end FileTree

end Compositor
