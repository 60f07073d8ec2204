import ClassFormat.Annotation.Codec
import ClassFormat.Annotation.Describe
import ClassFormat.Annotation.TargetInfo

/-!
# Type annotations

An annotation on a use of a type: which use it is (`TargetType`), what locates it
(`TargetInfo`), where in the type the annotation is (`TypePath`), and the annotation.

* `TypeAnnotation.read`, `TypeAnnotation.write`: as bytes;
* `TypeAnnotation.describe`: in words;
* `TypeAnnotation.checkThrows`: the indices of declared exceptions, checked at the end.
-/

namespace ClassFormat

namespace TypePath

/-- Reads a step. Only a step to a type argument has an argument. -/
def Step.read : Reader Step := do
  let kind ← Reader.u1
  let argument ← Reader.u1
  let plain (step : Step) : Reader Step := do
    if argument ≠ 0 then
      (Fault.malformed (.pathArgument step argument)).raise
    return step
  match kind with
  | 0 => plain array
  | 1 => plain nested
  | 2 => plain wildcard
  | 3 => return .argument argument
  | kind => (Fault.malformed (.pathKind kind)).raise

/-- The bytes of a step. -/
def Step.write (step : Step) : Bytes := Writer.u1 step.code.1 ++ Writer.u1 step.code.2

/-- Reads a path. -/
def read : Reader TypePath := Reader.shortTable fun _ => Step.read

/-- The bytes of a path. -/
def write (path : TypePath) : Written := Writer.shortTable (fun step => .ok step.write) path

end TypePath

/-- An annotation on a use of a type. -/
structure TypeAnnotation where
  target : TargetType
  info : TargetInfo
  path : TypePath
  annotation : Annotation

namespace TypeAnnotation

/-- Reads a type annotation, which has to be on a use of a type that its location has. -/
def read (s : Surroundings) : Reader TypeAnnotation := do
  let offset ← Reader.offset
  let value ← Reader.u1
  match TargetType.ofValue? value with
  | none => (Fault.unknownTargetType value).raise
  | some target =>
    if s.location ∉ target.locations then
      (Fault.misplacedTargetType value s.location).raise
    let info ← Reader.within (.inTargetInfo target offset) (TargetInfo.read s target.form)
    return ⟨target, info, ← TypePath.read, ← Annotation.read s.pool⟩

/-- The bytes of a type annotation, the data of which has to be in the form that the
    target type asks for. -/
def write (a : TypeAnnotation) : Written := do
  if a.info.form ≠ a.target.form then
    (Fault.malformed (.targetForm a.target a.info.form)).raise
  return Writer.u1 a.target.value ++ (← a.info.write) ++ (← a.path.write) ++ (← a.annotation.write)

/-- Reads a table of type annotations. -/
def readList (s : Surroundings) : Reader (List TypeAnnotation) :=
  Reader.table fun index => Reader.within (.readingTypeAnnotationAt index) (read s)

/-- The bytes of a table of type annotations. -/
def writeList (annotations : List TypeAnnotation) : Written := Writer.table write annotations

/-- The type annotation in words. -/
def describe (pool : ConstantPool) (a : TypeAnnotation) : Except Failure String := do
  let path := if a.path.isEmpty then "" else " path " ++ a.path.symbols
  return s!"{a.target.name} {a.info.describe}{path} " ++ (← a.annotation.describe pool)

/-- Checks that each type annotation on a declared exception is on one of the
    `exceptions` that the method declares. -/
def checkThrows (exceptions : Nat) (annotations : List TypeAnnotation) : Except Failure Unit :=
  annotations.forM fun a =>
    match a.info with
    | .throws index =>
      if exceptions ≤ index.toNat then (Fault.malformed (.throwsIndex index exceptions)).raise
      else .ok ()
    | _ => .ok ()

end TypeAnnotation

end ClassFormat
