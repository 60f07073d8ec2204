import ClassFormat.BigEndian

/-!
# Checksums

The checksum by which an archive tells what a record belongs to: the remainder of a byte
string as a polynomial over two elements, lowest bit first, known as CRC-32.

* `Checksum.ofBytes`: the checksum of a byte string.
-/

namespace ClassFormat

namespace Checksum

/-- The polynomial that is divided by, without its highest term. -/
def divisor : UInt32 := 0xEDB88320

/-- Takes one bit into the remainder. -/
def shift (remainder : UInt32) : UInt32 :=
  if remainder &&& 1 = 1 then remainder >>> 1 ^^^ divisor else remainder >>> 1

/-- Takes one byte into the remainder. -/
def step (remainder : UInt32) (b : UInt8) : UInt32 :=
  shift (shift (shift (shift (shift (shift (shift (shift (remainder ^^^ b.toUInt32))))))))

/-- The checksum of a byte string. All bits of the remainder are flipped before and after. -/
def ofBytes (bytes : Bytes) : UInt32 := ~~~bytes.foldl step 0xFFFFFFFF

/-- The digits from 1 to 9 have the checksum that is published for them. -/
example : ofBytes [0x31, 0x32, 0x33, 0x34, 0x35, 0x36, 0x37, 0x38, 0x39] = 0xCBF43926 := by
  decide +kernel

end Checksum

end ClassFormat
