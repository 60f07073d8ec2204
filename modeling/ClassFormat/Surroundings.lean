import ClassFormat.Code.Map
import ClassFormat.ConstantPool.Basic

/-!
# Surroundings

What the reader of an attribute knows of the class file around it.
-/

namespace ClassFormat

/-- How a class file is read. -/
structure ReadOptions where
  /-- Whether code offsets have to be those of instructions. -/
  verifyCodeOffsets : Bool := true

/-- What surrounds an attribute. -/
structure Surroundings where
  pool : ConstantPool
  options : ReadOptions
  /-- The list that the attribute is in. -/
  location : Location
  /-- The number of interfaces of the class. -/
  interfaces : Nat
  /-- The code, for an attribute of a `Code` attribute. -/
  code? : Option CodeMap

namespace Surroundings

/-- The surroundings of the attributes at another location outside of code. -/
def moveTo (s : Surroundings) (location : Location) : Surroundings :=
  { s with location := location, code? := none }

/-- The surroundings of the attributes of a `Code` attribute. -/
def inCode (s : Surroundings) (code : CodeMap) : Surroundings :=
  { s with location := .code, code? := some code }

/-- The code, which an attribute outside of code has none of. -/
def code (s : Surroundings) : Except Failure CodeMap :=
  match s.code? with
  | some code => .ok code
  | none => (Fault.malformed (.offsetOutsideCode s.location)).raise

/-- Runs a check against the code, if there is one. -/
def ifCode (s : Surroundings) (check : CodeMap → Except Failure Unit) : Except Failure Unit :=
  match s.code? with
  | some code => check code
  | none => .ok ()

end Surroundings

end ClassFormat
