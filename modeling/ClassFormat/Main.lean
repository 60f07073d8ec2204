import ClassFormat.Command.Run

/-!
# The program

Reads the files that the arguments name, and writes what the command gives for them.
-/

open ClassFormat

/-- The exit code for arguments that make no sense. -/
def usageCode : UInt32 := 2

/-- What the arguments may be. -/
def usage : String :=
  "usage: classlib [-v | -q] [--no-verify-offsets] (summary PATH | check PATH...)"

/-- The tree at a path of the file system, if there is one. -/
partial def loadTree (path : String) : IO (Option FileTree) := do
  try
    let place ← IO.FS.realPath path
    if ← place.isDir then
      let mut tree : List FileEntry := []
      for entry in ← place.readDir do
        if let some below ← loadTree entry.path.toString then
          tree := FileTree.putEntry ⟨entry.fileName, below⟩ tree
      return some (.directory tree)
    else
      return some (.file (← IO.FS.readBinFile path).toList)
  catch _ => return none

/-- The program: what the command does, with the files and the terminal of the system. -/
def main (arguments : List String) : IO UInt32 := do
  match Arguments.parse? arguments with
  | none =>
    IO.eprintln usage
    return usageCode
  | some a =>
    let trees ← a.paths.mapM fun path => return (path, ← loadTree path)
    let outcome := Command.run (fun path => (trees.lookup path).join) a
    IO.eprint outcome.errors
    IO.print outcome.output
    return outcome.code
