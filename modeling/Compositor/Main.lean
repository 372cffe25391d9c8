import Compositor.CommandLine

/-! Takes what a command line asks for from the file system, runs it there, and
prints what comes of it. -/

namespace Compositor.Snapshot

def takeFile (tree : FileTree) (path : String) : IO FileTree := do
  try
    return tree.write path (.file (← IO.FS.readBinFile path))
  catch _ =>
    return tree

partial def takeDirectory (tree : FileTree) (path : String) : IO FileTree := do
  let mut tree := tree.write path .directory
  for entry in ← (System.mkFilePath [path]).readDir do
    let child := Path.below path [entry.fileName]
    match (← entry.path.symlinkMetadata).type with
    | .dir => tree ← takeDirectory tree child
    | .file => tree ← takeFile tree child
    | _ => pure ()
  return tree

/-- Takes a content tree. Where its root is a link, what the link leads to
decides; a link to a file has nothing below it. -/
def takeRoot (tree : FileTree) (path : String) : IO FileTree := do
  try
    let isLink := (← (System.mkFilePath [path]).symlinkMetadata).type matches .symlink
    match (← (System.mkFilePath [path]).metadata).type with
    | .dir => takeDirectory tree path
    | _ => if isLink then return tree.write path .directory else takeFile tree path
  catch _ =>
    return tree

def take (command : Command) : IO FileTree := do
  let tree ← takeRoot .empty command.root
  match command.config with
  | none => return tree
  | some path => takeFile tree path

end Compositor.Snapshot

namespace Compositor.Command

def usageText : Topic → String
  | .command "render" => "render ROOT ID [--set KEY=VALUE]... [--config FILE]"
  | .command "list" => "list ROOT [--config FILE]"
  | _ => "render ROOT ID [--set KEY=VALUE]... [--config FILE] | list ROOT [--config FILE]"

def manual : Manual
  | .version => "versatile\n"
  | topic => "usage: " ++ usageText topic ++ "\n"

end Compositor.Command

open Compositor in
def main (arguments : List String) : IO UInt32 := do
  match Command.parse arguments with
  | .ok command =>
      let outcome := command.run (← Snapshot.take command)
      IO.print outcome.output
      return UInt32.ofNat outcome.code
  | .error .misuse =>
      IO.eprint (Command.manual .program)
      return 2
  | .error (.text topic) =>
      IO.print (Command.manual topic)
      return 0
