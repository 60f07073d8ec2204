import ClassFormat.BigEndian
import ClassFormat.Failure.Basic

/-!
# Writing

Numbers and tables as bytes. A number of a fixed width always has its bytes; a count
fails if its field is too narrow.

* `Writer.u1` to `Writer.u8`, `Writer.i1` to `Writer.i8`: numbers;
* `Writer.count`: a count in a field of a given width;
* `Writer.table`, `Writer.shortTable`: a count and that many rows.
-/

namespace ClassFormat

/-- The bytes of a value, unless it cannot be written. -/
abbrev Written := Except Failure Bytes

/-- The number of bytes of a count. -/
def CountWidth.bytes : CountWidth → Nat
  | u1 => 1
  | u2 => 2
  | u4 => 4

namespace Writer

variable {α : Type}

/-- An unsigned byte. -/
def u1 (n : UInt8) : Bytes := [n]

/-- An unsigned number in two bytes. -/
def u2 (n : UInt16) : Bytes := BigEndian.ofNat 2 n.toNat

/-- An unsigned number in four bytes. -/
def u4 (n : UInt32) : Bytes := BigEndian.ofNat 4 n.toNat

/-- An unsigned number in eight bytes. -/
def u8 (n : UInt64) : Bytes := BigEndian.ofNat 8 n.toNat

/-- A signed byte. -/
def i1 (n : Int8) : Bytes := u1 n.toUInt8

/-- A signed number in two bytes. -/
def i2 (n : Int16) : Bytes := u2 n.toUInt16

/-- A signed number in four bytes. -/
def i4 (n : Int32) : Bytes := u4 n.toUInt32

/-- A signed number in eight bytes. -/
def i8 (n : Int64) : Bytes := u8 n.toUInt64

/-- A count in a field of a width, refused if the field is too narrow. -/
def count (width : CountWidth) (n : Nat) : Written :=
  if n < BigEndian.capacity width.bytes then .ok (BigEndian.ofNat width.bytes n)
  else .error (.within (.countTooLarge n width) (.ofNote .tooLarge))

/-- Rows one after another. -/
def rows (write : α → Written) (items : List α) : Written :=
  return (← items.mapM write).flatten

/-- A count in two bytes, and that many rows. -/
def table (write : α → Written) (items : List α) : Written :=
  return (← count .u2 items.length) ++ (← rows write items)

/-- A count in one byte, and that many rows. -/
def shortTable (write : α → Written) (items : List α) : Written :=
  return (← count .u1 items.length) ++ (← rows write items)

/-- A count in two bytes, and that many indices. -/
def indices (items : List UInt16) : Written :=
  return (← count .u2 items.length) ++ items.flatMap u2

end Writer

end ClassFormat
