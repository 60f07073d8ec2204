import ClassFormat.ConstantPool.Reference
import ClassFormat.Surroundings
import ClassFormat.Writer

/-!
# Stack maps

The frames of a `StackMapTable` attribute: the types of the local variables and of the
operand stack at certain code offsets. A frame gives the distance to the frame before it,
so its code offset is known only when all frames before it are.

* `VerificationType`, `StackMapFrame`: the rows of the table and what they hold;
* `StackMapFrame.readTable`, `StackMapFrame.writeTable`: the table as bytes;
* `StackMapFrame.offsetAfter`: the code offset of a frame.
-/

namespace ClassFormat

/-- The type of a local variable or of an operand. -/
inductive VerificationType where
  | top
  | integer
  | float
  | double
  | long
  | null
  | uninitializedThis
  /-- An object of the `Class` at the index. -/
  | object (index : UInt16)
  /-- What the `new` instruction at a code offset has made. -/
  | uninitialized (offset : UInt16)
  deriving DecidableEq

namespace VerificationType

/-- Reads a type. -/
def read (s : Surroundings) : Reader VerificationType := do
  let tag ← Reader.u1
  match tag with
  | 0 => return top
  | 1 => return integer
  | 2 => return float
  | 3 => return double
  | 4 => return long
  | 5 => return null
  | 6 => return uninitializedThis
  | 7 => return object (← s.pool.readIndex [.classref])
  | 8 =>
    let offset ← Reader.u2
    s.ifCode fun code => code.requireStart .uninitialized offset.toNat
    return uninitialized offset
  | tag => (Fault.malformed (.verificationType tag)).raise

/-- The bytes of a type. -/
def write : VerificationType → Bytes
  | top => Writer.u1 0
  | integer => Writer.u1 1
  | float => Writer.u1 2
  | double => Writer.u1 3
  | long => Writer.u1 4
  | null => Writer.u1 5
  | uninitializedThis => Writer.u1 6
  | object index => Writer.u1 7 ++ Writer.u2 index
  | uninitialized offset => Writer.u1 8 ++ Writer.u2 offset

end VerificationType

/-- A frame. Except for `full` it tells only what changes from the frame before. -/
inductive StackMapFrame where
  | same (delta : UInt8)
  | sameOneItem (delta : UInt8) (stack : VerificationType)
  | sameOneItemExtended (delta : UInt16) (stack : VerificationType)
  /-- The last one to three local variables are gone. -/
  | chop (chopped : UInt8) (delta : UInt16)
  | sameExtended (delta : UInt16)
  /-- There are one to three more local variables. -/
  | append (delta : UInt16) (locals : List VerificationType)
  | full (delta : UInt16) (locals stack : List VerificationType)
  deriving DecidableEq

namespace StackMapFrame

/-- The distance that a frame gives. -/
def delta : StackMapFrame → UInt16
  | same delta | sameOneItem delta _ => delta.toUInt16
  | sameOneItemExtended delta _ | chop _ delta | sameExtended delta | append delta _
  | full delta _ _ => delta

/-- Reads a frame. -/
def read (s : Surroundings) : Reader StackMapFrame := do
  let type ← Reader.u1
  let types (_ : Nat) : Reader VerificationType := VerificationType.read s
  if type ≤ 63 then return same type
  else if type ≤ 127 then return sameOneItem (type - 64) (← VerificationType.read s)
  -- Types from 128 on are reserved for future use.
  else if type ≤ 246 then (Fault.malformed (.frameType type)).raise
  else if type = 247 then return sameOneItemExtended (← Reader.u2) (← VerificationType.read s)
  else if type ≤ 250 then return chop (251 - type) (← Reader.u2)
  else if type = 251 then return sameExtended (← Reader.u2)
  else if type ≤ 254 then return append (← Reader.u2) (← Reader.times (type - 251).toNat types)
  else return full (← Reader.u2) (← Reader.table types) (← Reader.table types)

/-- The bytes of a frame. -/
def write : StackMapFrame → Written
  | same delta =>
    if 63 < delta then (Fault.malformed (.sameFrameDelta delta)).raise
    else .ok (Writer.u1 delta)
  | sameOneItem delta stack =>
    if 63 < delta then (Fault.malformed (.sameOneItemFrameDelta delta)).raise
    else .ok (Writer.u1 (64 + delta) ++ stack.write)
  | sameOneItemExtended delta stack => .ok (Writer.u1 247 ++ Writer.u2 delta ++ stack.write)
  | chop chopped delta =>
    if chopped < 1 || 3 < chopped then (Fault.malformed (.choppedLocals chopped)).raise
    else .ok (Writer.u1 (251 - chopped) ++ Writer.u2 delta)
  | sameExtended delta => .ok (Writer.u1 251 ++ Writer.u2 delta)
  | append delta locals =>
    if locals.length < 1 || 3 < locals.length then
      (Fault.malformed (.appendedLocals locals.length)).raise
    else
      .ok (Writer.u1 (251 + UInt8.ofNat locals.length) ++ Writer.u2 delta ++
        locals.flatMap VerificationType.write)
  | full delta locals stack => do
    let locals ← Writer.table (fun type => .ok type.write) locals
    let stack ← Writer.table (fun type => .ok type.write) stack
    return Writer.u1 255 ++ Writer.u2 delta ++ locals ++ stack

/-- The code offset of a frame, given that of the frame before it. -/
def offsetAfter (previous : Option Nat) (frame : StackMapFrame) : Nat :=
  match previous with
  | none => frame.delta.toNat
  | some previous => previous + frame.delta.toNat + 1

/-- Reads frames, the first of which has the number `index` and follows one at the code
    offset `previous`; `done` are those before, the last one first. -/
def readFrom (s : Surroundings) (index : Nat) (previous : Option Nat) (done : List StackMapFrame) :
    (n : Nat) → Reader (List StackMapFrame)
  | 0 => return done.reverse
  | n + 1 => do
    let frame ← Reader.within (.readingFrame index) (read s)
    let offset := frame.offsetAfter previous
    Failure.inside (.inFrame index)
      (s.ifCode fun code => code.requireStart .stackMapFrame offset)
    readFrom s (index + 1) (some offset) (frame :: done) n

/-- Reads a table of frames. -/
def readTable (s : Surroundings) : Reader (List StackMapFrame) := do
  readFrom s 0 none [] (← Reader.u2).toNat

/-- The bytes of a table of frames. -/
def writeTable (frames : List StackMapFrame) : Written := Writer.table write frames

end StackMapFrame

end ClassFormat
