import Propositional.Command.Run

/-! The command line. What the options name is looked up on disk and put into a tree of files; the
run itself is a function of that tree, and what it leaves there is written back. -/
namespace Propositional.Command

/-- A tree with what is on disk at a path, if anything is. -/
def withPath (tree : FileTree) (path : Text) : IO FileTree := do
  let name := String.ofList path
  try
    let content ← IO.FS.readBinFile name
    return tree.add path content.toList
  catch
    | .noFileOrDirectory .. => return tree
    | _ => return (tree.ensureDirectories path).toOption.getD tree

/-- The part of the disk that options speak of. -/
def loaded (o : Options) : IO FileTree :=
  let batch :=
    match o.input with
    | some (.named path) => [Path.normalized path]
    | _ => []
  (batch ++ o.visualize.toList).foldlM withPath .empty

/-- Writes the files of a run into the directory that was named for them. -/
def save (directory : Text) (files : List (List Text × Text)) : IO Unit := do
  IO.FS.createDirAll (String.ofList directory)
  for (names, text) in files do
    let path := Path.join directory (names.getLast?.getD [])
    IO.FS.writeFile (String.ofList path) (String.ofList text)

end Propositional.Command

open Propositional Propositional.Command in
def main (args : List String) : IO UInt32 := do
  let arguments := args.map String.toList
  let options := (Options.ofArguments arguments).toOption.getD {}
  let (outcome, threshold) := run (← loaded options) arguments
  IO.print (String.ofList (outcome.text threshold))
  if let some e := outcome.usageError then
    IO.eprintln (String.ofList e.message)
  if let (some directory, _ :: _) := (options.visualize, outcome.files) then
    save directory outcome.files
  return outcome.exit.toUInt32
