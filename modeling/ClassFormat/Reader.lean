import ClassFormat.BigEndian
import ClassFormat.Failure.Basic
import ClassFormat.Log

/-!
# Readers

A `Reader` takes a value off the front of a byte string. It knows how far from the start
of the class file it is, since failures tell offsets, and it logs what it does.

* `Reader.bytes`, `Reader.u1` to `Reader.u8`, `Reader.i1` to `Reader.i8`: bytes and
  numbers, refused as truncated if there are too few bytes left;
* `Reader.times`, `Reader.table`: many values, the number of which may be read first;
* `Reader.delimited`, `Reader.confined`: a reader that sees certain bytes only;
* `Reader.within`: a reader whose failures get one more note.
-/

namespace ClassFormat

/-- Where a reader stands. -/
structure Cursor where
  /-- The bytes still to be read. -/
  rest : Bytes
  /-- The offset of the first of them within the class file. -/
  offset : Nat
  /-- What has been logged, the last event first. -/
  log : List Log.Event

/-- Where the reader of a whole class file starts. -/
def Cursor.start (bytes : Bytes) : Cursor := ⟨bytes, 0, []⟩

/-- A reader of values of a type. -/
abbrev Reader := EStateM Failure Cursor

namespace Reader

variable {α : Type}

/-- The offset within the class file. -/
def offset : Reader Nat := return (← get).offset

/-- Logs an event. -/
def log (event : Log.Event) : Reader Unit :=
  modify fun c => { c with log := event :: c.log }

/-- The next `n` bytes. -/
def bytes (n : Nat) : Reader Bytes := fun c =>
  let taken := c.rest.take n
  if taken.length = n then .ok taken { c with rest := c.rest.drop n, offset := c.offset + n }
  else .error (.ofFault (.truncated c.offset n taken.length)) c

/-- The number in the next `width` bytes. -/
def number (width : Nat) : Reader Nat := return BigEndian.toNat (← bytes width)

/-- An unsigned byte. -/
def u1 : Reader UInt8 := return UInt8.ofNat (← number 1)

/-- An unsigned number of two bytes. -/
def u2 : Reader UInt16 := return UInt16.ofNat (← number 2)

/-- An unsigned number of four bytes. -/
def u4 : Reader UInt32 := return UInt32.ofNat (← number 4)

/-- An unsigned number of eight bytes. -/
def u8 : Reader UInt64 := return UInt64.ofNat (← number 8)

/-- A signed byte. -/
def i1 : Reader Int8 := return (← u1).toInt8

/-- A signed number of two bytes. -/
def i2 : Reader Int16 := return (← u2).toInt16

/-- A signed number of four bytes. -/
def i4 : Reader Int32 := return (← u4).toInt32

/-- A signed number of eight bytes. -/
def i8 : Reader Int64 := return (← u8).toInt64

/-- The values of `n` runs of a reader, which is told the number of each run; `index` is
    that of the first, and `done` holds the values so far, the last one first. -/
def timesFrom (read : Nat → Reader α) (index : Nat) (done : List α) : (n : Nat) → Reader (List α)
  | 0 => return done.reverse
  | n + 1 => do
    let a ← read index
    timesFrom read (index + 1) (a :: done) n

/-- The values of `n` runs of a reader, which is told the number of each run. -/
def times (n : Nat) (read : Nat → Reader α) : Reader (List α) := timesFrom read 0 [] n

/-- A count in two bytes, and that many values. -/
def table (read : Nat → Reader α) : Reader (List α) := do times (← u2).toNat read

/-- A count in one byte, and that many values. -/
def shortTable (read : Nat → Reader α) : Reader (List α) := do times (← u1).toNat read

/-- Runs a reader on `body`, the bytes at the offset `start`, and gives what that reader
    has left over of them. -/
def confined (start : Nat) (body : Bytes) (read : Reader α) : Reader (α × Bytes) := fun c =>
  -- The reader outside stays where it is, but keeps what was logged inside.
  match read ⟨body, start, c.log⟩ with
  | .ok a inner => .ok (a, inner.rest) { c with log := inner.log }
  | .error f inner => .error f { c with log := inner.log }

/-- Reads the next `n` bytes with a reader that sees no others, and gives what that
    reader has left over. -/
def delimited (n : Nat) (read : Reader α) : Reader (α × Bytes) := do
  let start ← offset
  confined start (← bytes n) read

/-- All bytes that are left. -/
def remaining : Reader Bytes := do bytes (← get).rest.length

/-- Changes the failures of a reader. -/
def mapFailure (change : Failure → Failure) (read : Reader α) : Reader α := fun c =>
  match read c with
  | .ok a c' => .ok a c'
  | .error f c' => .error (change f) c'

/-- Adds a note to the failures of a reader. -/
def within (note : Note) (read : Reader α) : Reader α := mapFailure (Failure.within note) read

end Reader

end ClassFormat
