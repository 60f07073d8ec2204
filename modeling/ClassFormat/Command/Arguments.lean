import ClassFormat.Log

/-!
# Arguments

What the command is asked to do: print a summary of a class file, or check that class
files are written back as they were read.

* `Arguments.parse?`: the arguments of a command line, `none` if they make no sense.

The flags may stand before and after the name of the action. On each side `--quiet` and
`--no-verify-offsets` may stand once, and `--quiet` not together with `--verbose`. After
`--`, which may follow the name of the action, everything is a path.
-/

namespace ClassFormat

/-- What the command does. -/
inductive Action where
  | summary
  | check
  deriving DecidableEq

/-- What the command is asked to do. -/
structure Arguments where
  action : Action
  paths : List String
  /-- The least important level that is logged. -/
  level : Log.Level
  verifyCodeOffsets : Bool

namespace Arguments

/-- The flags on one side of the name of the action. -/
structure Flags where
  /-- How often `--verbose` stands there. -/
  verbose : Nat := 0
  quiet : Bool := false
  noVerifyOffsets : Bool := false

/-- One more `--verbose`. -/
def Flags.addVerbose (f : Flags) : Option Flags :=
  if f.quiet then none else some { f with verbose := f.verbose + 1 }

/-- A `--quiet`, which may stand once. -/
def Flags.addQuiet (f : Flags) : Option Flags :=
  if f.quiet || 0 < f.verbose then none else some { f with quiet := true }

/-- A `--no-verify-offsets`, which may stand once. -/
def Flags.addNoVerifyOffsets (f : Flags) : Option Flags :=
  if f.noVerifyOffsets then none else some { f with noVerifyOffsets := true }

/-- The flags of the letters after a single dash. -/
def Flags.addLetters (f : Flags) : List Char → Option Flags
  | [] => some f
  | 'v' :: rest => do (← f.addVerbose).addLetters rest
  | 'q' :: rest => do (← f.addQuiet).addLetters rest
  | _ => none

/-- A flag that is spelled as an argument. -/
def Flags.add (f : Flags) (argument : String) : Option Flags :=
  match argument with
  | "--verbose" => f.addVerbose
  | "--quiet" => f.addQuiet
  | "--no-verify-offsets" => f.addNoVerifyOffsets
  | _ => if argument.startsWith "--" then none else f.addLetters (argument.toList.drop 1)

/-- Whether an argument is a flag. A single dash is none. -/
def isFlag (argument : String) : Bool := argument.startsWith "-" && argument ≠ "-"

/-- The action of a name. -/
def action? : String → Option Action
  | "summary" => some .summary
  | "check" => some .check
  | _ => none

/-- The flags and the paths that follow the name of the action, `paths` being those so far,
    the last one first. -/
def parseRest (f : Flags) (paths : List String) : List String → Option (Flags × List String)
  | [] => some (f, paths.reverse)
  | "--" :: rest => some (f, paths.reverse ++ rest)
  | argument :: rest =>
    if isFlag argument then do parseRest (← f.add argument) paths rest
    else parseRest f (argument :: paths) rest

/-- The flags before the name of the action, the action, and what follows its name. -/
def parseFront (f : Flags) : List String → Option (Flags × Action × List String)
  | [] => none
  | argument :: rest =>
    if isFlag argument then do parseFront (← f.add argument) rest
    else do return (f, ← action? argument, rest)

/-- The level of the log. What follows the name of the action wins over what precedes it,
    and `--quiet` over `--verbose`. -/
def levelOf (before after : Flags) : Log.Level :=
  if before.quiet || after.quiet then .error
  else
    -- The two counts are not added up.
    match if 0 < after.verbose then after.verbose else before.verbose with
    | 0 => .info
    | 1 => .debug
    | _ => .trace

/-- Whether there are as many paths as the action takes. -/
def takes : Action → List String → Bool
  | .summary, paths => paths.length = 1
  | .check, paths => 0 < paths.length

/-- The arguments of a command line. -/
def parse? (arguments : List String) : Option Arguments := do
  let (before, action, rest) ← parseFront {} arguments
  let (after, paths) ← parseRest {} [] rest
  guard (takes action paths && paths.all fun path => !path.isEmpty)
  return {
    action, paths
    level := levelOf before after
    verifyCodeOffsets := !(before.noVerifyOffsets || after.noVerifyOffsets) }

end Arguments

end ClassFormat
