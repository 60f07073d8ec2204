import ClassFormat.Archive.Member
import ClassFormat.ClassFile.Summary
import ClassFormat.ClassFile.Write
import ClassFormat.Command.Arguments
import ClassFormat.Failure.Message
import ClassFormat.FileTree

/-!
# The command

What the command writes for its arguments and the files that they name.

* `Command.collect`: the class files at a path, in a directory or in an archive;
* `Command.check`, `Command.summary`: the two actions;
* `Command.run`: the exit code and everything that is written.
-/

namespace ClassFormat

namespace Command

/-- Why the command fails. -/
inductive Trouble where
  | missingFile (path : String)
  | directory (path : String)
  | missingArchive (path : String)
  | badArchive (path : String)
  | badClass (path : String) (failure : Failure)
  | badSummary (failure : Failure)
  | failedChecks (failed total : Nat)

/-- Why a file cannot be opened that is not there. -/
def missing : String := "No such file or directory (os error 2)"

/-- Why a directory cannot be read like a file. -/
def isDirectory : String := "Is a directory (os error 21)"

/-- Why a file is no archive that can be read. -/
def noArchive : String := "invalid Zip archive: Could not find EOCD"

/-- The causes in words, the outermost first. -/
def Trouble.messages : Trouble → List String
  | missingFile path => ["failed to read " ++ Quote.text.renderString path, missing]
  | directory path => ["failed to read " ++ Quote.text.renderString path, isDirectory]
  | missingArchive path => ["failed to open jar " ++ Quote.text.renderString path, missing]
  | badArchive path => ["failed to read jar " ++ Quote.text.renderString path, noArchive]
  | badClass path failure =>
    ("failed to read class file " ++ Quote.text.renderString path) :: failure.messages
  | badSummary failure => failure.messages
  | failedChecks failed total => [s!"{failed} of {total} class files failed to round trip"]

/-- A cause behind the first one; a number stands before it if there are several. -/
def renderCause (number? : Option Nat) (message : String) : String :=
  match number? with
  | none => "    " ++ "\n    ".intercalate (message.splitOn "\n")
  | some n =>
    -- Further lines stand under the first one.
    let number := toString n
    String.ofList (List.replicate (5 - number.length) ' ') ++ number ++ ": " ++
      "\n       ".intercalate (message.splitOn "\n")

/-- What is written for causes, the outermost first. -/
def renderCauses : List String → String
  | [] => ""
  | [message] => s!"Error: {message}\n"
  | message :: causes =>
    let causes := match causes with
      | [cause] => [renderCause none cause]
      | causes => causes.zipIdx.map fun (cause, n) => renderCause (some n) cause
    s!"Error: {message}\n\nCaused by:\n" ++ "\n".intercalate causes ++ "\n"

/-- What has been written so far. -/
structure Trace where
  /-- The lines on standard output. -/
  output : Array String := #[]
  log : Array Log.Line := #[]

/-- A computation of the command. -/
abbrev Job := EStateM Trouble Trace

/-- Writes a line. -/
def print (line : String) : Job Unit := modify fun t => { t with output := t.output.push line }

/-- Logs a line. -/
def log (level : Log.Level) (source : Log.Source) (message : String) : Job Unit :=
  modify fun t => { t with log := t.log.push ⟨level, source, message⟩ }

/-- Reads a class file and logs what happens on the way. -/
def readClass (options : ReadOptions) (bytes : Bytes) : Job (Except Failure ClassFile) := do
  let (result, events) := ClassFile.ofBytesLogged options bytes
  modify fun t => { t with log := t.log ++ (events.map Log.Event.line).toArray }
  return result

/-- A class file to be checked. -/
structure Input where
  /-- Where it came from, in words. -/
  origin : String
  bytes : Bytes

/-- The class files of the archive at a path. -/
def collectArchive (path : String) (contents : Bytes) : Job (List Input) := do
  match Archive.members? contents with
  | none => throw (.badArchive path)
  | some members =>
    let classes := members.filter fun (name, _) => name.endsWith ".class"
    log .info .inputs s!"found {classes.length} class files in {Quote.text.renderString path}"
    return classes.map fun (name, bytes) => ⟨path ++ "!/" ++ name, bytes⟩

/-- The class files of the file at a path. -/
def collectFile (path : String) (contents : Bytes) : Job (List Input) :=
  if Path.extension? path = some "jar" then collectArchive path contents
  else return [⟨path, contents⟩]

/-- The class files of a file that was found in a directory. -/
def collectFound (path : String) (contents : Bytes) : Job (List Input) := do
  if Path.extension? path ∈ [some "class", some "jar"] then collectFile path contents
  else
    log .debug .inputs ("skipping " ++ Quote.text.renderString path)
    return []

/-- The class files at a path. -/
def collect (tree? : Option FileTree) (path : String) : Job (List Input) :=
  match tree? with
  | none =>
    if Path.extension? path = some "jar" then throw (.missingArchive path)
    else throw (.missingFile path)
  | some (.file contents) => collectFile path contents
  | some tree => do
    let found ← (tree.files path).mapM fun (path, contents) => collectFound path contents
    return found.flatten

/-- The first position at which two byte strings that start at `position` differ, or else
    the end of the shorter one. -/
def firstDifference (position : Nat) : Bytes → Bytes → Nat
  | a :: as, b :: bs => if a = b then firstDifference (position + 1) as bs else position
  | _, _ => position

/-- Checks that a class file is written as it was read; tells why if it is not. -/
def checkOne (options : ReadOptions) (input : Input) : Job (Except String Unit) := do
  match (← readClass options input.bytes).bind ClassFile.toBytes with
  | .error failure => return .error failure.message
  | .ok written =>
    if written = input.bytes then return .ok ()
    else
      let position := firstDifference 0 written input.bytes
      return .error
        (s!"writing back produced different bytes: first difference at offset {position}, " ++
        s!"length {written.length} instead of {input.bytes.length}")

/-- Checks a class file and logs how that went; tells whether it went well. -/
def checkLogged (options : ReadOptions) (input : Input) : Job Bool := do
  match ← checkOne options input with
  | .ok () =>
    log .info .command (input.origin ++ ": ok")
    return true
  | .error problem =>
    log .error .command (input.origin ++ ": " ++ problem)
    return false

/-- Checks all class files at some paths. -/
def check (find? : String → Option FileTree) (options : ReadOptions) (paths : List String) :
    Job Unit := do
  let inputs := (← paths.mapM fun path => collect (find? path) path).flatten
  let failed := (← inputs.mapM (checkLogged options)).count false
  print s!"checked {inputs.length} class files, {failed} failed"
  if failed ≠ 0 then throw (.failedChecks failed inputs.length)

/-- Prints a summary of the class file at a path. -/
def summary (find? : String → Option FileTree) (options : ReadOptions) (path : String) :
    Job Unit := do
  match find? path with
  | some (.file contents) =>
    match ← readClass options contents with
    | .error failure => throw (.badClass path failure)
    | .ok c =>
      let (lines, result) := c.summarize
      lines.forM print
      match result with
      | .ok () => return
      | .error failure => throw (.badSummary failure)
  | some (.directory _) => throw (.directory path)
  | none => throw (.missingFile path)

/-- Does what the arguments ask for. -/
def perform (find? : String → Option FileTree) (a : Arguments) : Job Unit :=
  let options : ReadOptions := { verifyCodeOffsets := a.verifyCodeOffsets }
  match a.action with
  | .summary => a.paths.forM (summary find? options)
  | .check => check find? options a.paths

/-- How the command ended. -/
structure Outcome where
  code : UInt32
  /-- What is written to standard output. -/
  output : String
  /-- What is written to the standard error output: the log, and why the command failed. -/
  errors : String

/-- Lines as text, each one ended. -/
def unlines (lines : List String) : String := String.join (lines.map fun line => line ++ "\n")

/-- The outcome for arguments, given what each path leads to. -/
def run (find? : String → Option FileTree) (a : Arguments) : Outcome :=
  let outcome (code : UInt32) (t : Trace) (report : String) : Outcome :=
    let shown := t.log.toList.filter fun line => line.level.rank ≤ a.level.rank
    ⟨code, unlines t.output.toList, unlines (shown.map Log.Line.render) ++ report⟩
  match perform find? a {} with
  | .ok () t => outcome 0 t ""
  | .error trouble t => outcome 1 t (renderCauses trouble.messages)

end Command

end ClassFormat
