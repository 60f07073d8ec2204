import ClassFormat.BigEndian

/-!
# File trees

Files and directories, and the paths that lead to them.

* `FileTree.ofFiles`: the directory that holds given files;
* `FileTree.find?`: what a path leads to;
* `FileTree.files`: all files of a tree with their paths, the entries of each directory
  in the order of their names;
* `Path.fileName?`, `Path.extension?`: parts of a path.
-/

namespace ClassFormat

mutual

/-- A file or a directory. -/
inductive FileTree where
  | file (contents : Bytes)
  | directory (entries : List FileEntry)

/-- An entry of a directory. -/
structure FileEntry where
  name : String
  tree : FileTree

end

namespace Path

/-- The names along a path, without those that stay where they are. -/
def components (path : String) : List String :=
  (path.splitOn "/").filter fun name => name ≠ "" && name ≠ "."

/-- The path of an entry of the directory at a path. -/
def join (path name : String) : String :=
  if path.endsWith "/" then path ++ name else path ++ "/" ++ name

/-- The name of what a path leads to, if the path tells it. -/
def fileName? (path : String) : Option String :=
  (components path).getLast?.filter fun name => name ≠ ".."

/-- What follows the last dot of a file name, unless nothing precedes the dot. -/
def extension? (path : String) : Option String := do
  let name := (← fileName? path).toList.reverse
  let after := name.takeWhile fun c => c ≠ '.'
  let before := (name.drop (after.length + 1)).reverse
  -- A name without a dot leaves nothing before it, either.
  if before.isEmpty then none else some (String.ofList after.reverse)

end Path

namespace FileTree

/-- The entries of a directory; a file has none. -/
def entries : FileTree → List FileEntry
  | .file _ => []
  | .directory entries => entries

/-- Puts an entry among others, which are in the order of their names. -/
def putEntry (entry : FileEntry) : List FileEntry → List FileEntry
  | [] => [entry]
  | other :: rest =>
    if entry.name < other.name then entry :: other :: rest
    else if entry.name = other.name then entry :: rest
    else other :: putEntry entry rest

/-- The tree of an entry with a name. -/
def entry? (name : String) (tree : FileTree) : Option FileTree :=
  (tree.entries.find? fun entry => entry.name = name).map FileEntry.tree

/-- Puts a file into a tree, with the directories that lead to it. -/
def insert (contents : Bytes) (tree : FileTree) : List String → FileTree
  | [] => .file contents
  | name :: rest =>
    let below := insert contents ((tree.entry? name).getD (.directory [])) rest
    .directory (putEntry ⟨name, below⟩ tree.entries)

/-- The directory that holds given files. -/
def ofFiles (files : List (String × Bytes)) : FileTree :=
  files.foldl (fun tree (path, contents) => tree.insert contents (Path.components path))
    (.directory [])

/-- Follows the names of a path; `above` are the directories around the tree, the innermost
    one first. -/
def follow (above : List FileTree) (tree : FileTree) : List String → Option FileTree
  | [] => some tree
  | name :: rest =>
    match tree with
    | .file _ => none
    | .directory _ =>
      if name = ".." then
        match above with
        | outer :: outside => follow outside outer rest
        | [] => none
      else (tree.entry? name).bind fun next => follow (tree :: above) next rest

/-- What a path leads to from a tree. A path from the root of the file system leads out of
    the tree. -/
def find? (tree : FileTree) (path : String) : Option FileTree :=
  if path.isEmpty || path.startsWith "/" then none else follow [] tree (Path.components path)

mutual

/-- All files of the tree at a path, with their paths. -/
def files (path : String) : FileTree → List (String × Bytes)
  | .file contents => [(path, contents)]
  | .directory entries => filesOf path entries

/-- All files of some entries of the directory at a path, with their paths. -/
def filesOf (path : String) : List FileEntry → List (String × Bytes)
  | [] => []
  | ⟨name, tree⟩ :: rest => files (Path.join path name) tree ++ filesOf path rest

end

end FileTree

end ClassFormat
