import Compositor.Entries

namespace Compositor.Toml

/-- How a table came to be: written between braces, by its own header, on the
way to a deeper header, or by a dotted key. -/
inductive Origin where
  | braces
  | header
  | implied
  | dotted
  deriving DecidableEq, Repr

inductive Value where
  | string (text : String)
  | integer (value : Int)
  | float (value : Float)
  | boolean (value : Bool)
  | dateTime (text : String)
  | array (items : List Value)
  | table (origin : Origin) (entries : List (String × Value))
  | tables (elements : List (List (String × Value)))

instance : Inhabited Value := ⟨.array []⟩

abbrev Table := Entries Value

abbrev Path := List String

namespace Table

/-- Changes the table that a path leads to. Tables that are missing on the way
are made with origin `fresh`; those with an origin that `passes` refuses, and
values, bar the way. An array of tables leads on through its last element. -/
def modifyAt (fresh : Origin) (passes : Origin → Bool)
    (change : Origin → Table → Option Table) :
    Path → Origin → Table → Option Table
  | [], origin, table => change origin table
  | key :: path, _, table =>
      match table.get? key with
      | none => do
          let inner ← modifyAt fresh passes change path fresh []
          pure (table.insert key (.table fresh inner))
      | some (.table origin inner) =>
          if passes origin then do
            let inner ← modifyAt fresh passes change path origin inner
            pure (table.insert key (.table origin inner))
          else none
      | some (.tables elements) => do
          let last ← elements.getLast?
          let inner ← modifyAt fresh passes change path .header last
          pure (table.insert key (.tables (elements.dropLast ++ [inner])))
      | some _ => none

/-- Defines a dotted key. It may add to tables that only dotted keys have made,
and to none that a header or braces define. -/
def define (table : Table) (path : Path) (key : String) (value : Value) : Option Table :=
  let passes (origin : Origin) : Bool := origin = .implied || origin = .dotted
  let change (origin : Origin) (target : Table) : Option Table :=
    if (origin = .dotted) = path.isEmpty then none
    else if target.contains key then none
    else some (target.insert key value)
  modifyAt .dotted passes change path .header table

def defineAll (table : Table) (pairs : List (Path × String × Value)) : Option Table :=
  pairs.foldlM (fun table (path, key, value) => table.define path key value) table

def passesHeader (origin : Origin) : Bool := origin ≠ .braces

/-- Adds the table of a header. It may take over a table that deeper headers
have implied, but define none twice. -/
def addSection (root : Table) (path : Path) (key : String)
    (pairs : List (Path × String × Value)) : Option Table :=
  let change (_ : Origin) (parent : Table) : Option Table :=
    match parent.get? key with
    | none => do pure (parent.insert key (.table .header (← defineAll [] pairs)))
    | some (.table .implied inner) => do
        pure (parent.insert key (.table .header (← defineAll inner pairs)))
    | some _ => none
  modifyAt .implied passesHeader change path .header root

/-- Adds an element to the array of tables of a header. -/
def addElement (root : Table) (path : Path) (key : String)
    (pairs : List (Path × String × Value)) : Option Table :=
  let change (_ : Origin) (parent : Table) : Option Table :=
    match parent.get? key with
    | none => do pure (parent.insert key (.tables [← defineAll [] pairs]))
    | some (.tables elements) => do
        pure (parent.insert key (.tables (elements ++ [← defineAll [] pairs])))
    | some _ => none
  modifyAt .implied passesHeader change path .header root

end Table

end Compositor.Toml
