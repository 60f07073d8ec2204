import ClassFormat.BigEndian

/-!
# Archives as bytes

An archive is read from its end, so its bytes are looked at by offset. Every record starts
with a mark of its own, and every number has its lowest byte first.

* `Archive.number?`, `Archive.slice?`: a field of a record;
* `Archive.holds`: whether a record starts at an offset;
* `Archive.firstSome`, `Archive.lastSome`: searches by offset.
-/

namespace ClassFormat

/-- The bytes of an archive. -/
abbrev Archive := Array UInt8

namespace Archive

/-- The first bytes of the record before the contents of a member. -/
def memberMark : Bytes := [0x50, 0x4B, 0x03, 0x04]

/-- The first bytes of a record of the directory. -/
def directoryMark : Bytes := [0x50, 0x4B, 0x01, 0x02]

/-- The first bytes of the record at the end. -/
def endMark : Bytes := [0x50, 0x4B, 0x05, 0x06]

/-- The first bytes of the record at the end of a large archive, whose numbers are wide. -/
def wideEndMark : Bytes := [0x50, 0x4B, 0x06, 0x06]

/-- The first bytes of the record that tells where the wide end record is. -/
def locatorMark : Bytes := [0x50, 0x4B, 0x06, 0x07]

/-- The `length` bytes from an offset on. -/
def slice? (a : Archive) (offset length : Nat) : Option Bytes :=
  let found := a.extract offset (offset + length)
  if found.size = length then some found.toList else none

/-- The number that bytes spell, the lowest byte first. -/
def value (bytes : Bytes) : Nat := BigEndian.toNat bytes.reverse

/-- The number in `width` bytes from an offset on. -/
def number? (a : Archive) (offset width : Nat) : Option Nat := (a.slice? offset width).map value

/-- Whether bytes stand at an offset. -/
def holds (a : Archive) : Bytes → (offset : Nat) → Bool
  | [], _ => true
  | b :: rest, offset => a[offset]? == some b && a.holds rest (offset + 1)

/-- What `f` gives for the first of the `left` offsets from `offset` on for which it gives
    anything. -/
def firstSome {α : Type} (f : Nat → Option α) (offset : Nat) : (left : Nat) → Option α
  | 0 => none
  | left + 1 =>
    match f offset with
    | some found => some found
    | none => firstSome f (offset + 1) left

/-- What `f` gives for the last offset below a bound for which it gives anything. -/
def lastSome {α : Type} (f : Nat → Option α) : (bound : Nat) → Option α
  | 0 => none
  | offset + 1 =>
    match f offset with
    | some found => some found
    | none => lastSome f offset

end Archive

end ClassFormat
