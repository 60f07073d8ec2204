import ClassFormat.Failure.Basic

/-!
# Code maps

What the parts of a `Code` attribute check their code offsets against: at which offsets
an instruction starts, how long the code is, and how many exception handlers there are.
A map that does not verify accepts every offset.
-/

namespace ClassFormat

/-- What is known of a code array. -/
structure CodeMap where
  /-- The number of bytes of the code. -/
  length : Nat
  /-- Whether an instruction starts at each offset. -/
  starts : Array Bool
  /-- The number of entries of the exception table. -/
  handlers : Nat
  /-- Whether offsets are checked at all. -/
  verify : Bool

namespace CodeMap

/-- The map of a code array, without exception handlers. -/
def ofInstructions (length : Nat) (instructions : List Instruction) (verify : Bool) : CodeMap where
  length := length
  starts := instructions.foldl (fun starts i => starts.setIfInBounds i.offset.toNat true)
    (Array.replicate length false)
  handlers := 0
  verify := verify

/-- Whether an instruction starts at an offset. -/
def isStart (map : CodeMap) : (offset : Int) → Bool
  | .ofNat n => map.starts[n]?.getD false
  | .negSucc _ => false

/-- Checks that an instruction starts at an offset. -/
def requireStart (map : CodeMap) (role : OffsetRole) (offset : Nat) : Except Failure Unit :=
  if map.verify && !map.isStart offset then
    (Fault.malformed (.notAnInstruction role offset map.length)).raise
  else .ok ()

/-- Checks that an instruction starts at an offset, or that the code ends there. -/
def requireEnd (map : CodeMap) (role : OffsetRole) (offset : Nat) : Except Failure Unit :=
  if map.verify && offset ≠ map.length && !map.isStart offset then
    (Fault.malformed (.notAnEnd role offset map.length)).raise
  else .ok ()

/-- Checks a range that is given by its start and its length. -/
def requireRange (map : CodeMap) (role : OffsetRole) (start length : UInt16) :
    Except Failure Unit := do
  map.requireStart role start.toNat
  -- The sum may need more than two bytes, and is no end of code then.
  map.requireEnd role (start.toNat + length.toNat)

/-- Checks that the targets of an instruction are instructions. -/
def requireTargets (map : CodeMap) (i : Instruction) : Except Failure Unit :=
  if map.verify then
    match i.targets.find? fun target => !map.isStart target with
    | some target => (Fault.malformed (.branchToNowhere i.mnemonic i.offset target)).raise
    | none => .ok ()
  else .ok ()

/-- Checks that the targets of all instructions are instructions. -/
def requireAllTargets (map : CodeMap) (instructions : List Instruction) : Except Failure Unit :=
  instructions.forM map.requireTargets

end CodeMap

end ClassFormat
