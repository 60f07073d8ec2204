/-!
# Big-endian numbers

Every number of a class file takes a fixed number of bytes, most significant byte
first. `BigEndian.ofNat` spells a number, `BigEndian.toNat` reads it back.

* `BigEndian.length_ofNat`: a number takes exactly its width;
* `BigEndian.capacity`: how many numbers a width can spell;
* `BigEndian.toNat_ofNat`: reading a spelled number gives it back, up to the width;
* `BigEndian.ofNat_toNat`: spelling a number that was read gives the same bytes;
* `BigEndian.toNat_lt_capacity`: what is read fits the width.
-/

namespace ClassFormat

/-- A byte string. -/
abbrev Bytes := List UInt8

namespace BigEndian

/-- The lowest `width` bytes of `n`, most significant byte first. -/
def ofNat : (width : Nat) → (n : Nat) → Bytes
  | 0, _ => []
  | width + 1, n => ofNat width (n / 256) ++ [UInt8.ofNat n]

/-- The number that `bytes` spell, most significant byte first. -/
def toNat (bytes : Bytes) : Nat :=
  bytes.foldl (fun n b => n * 256 + b.toNat) 0

/-- How many numbers `width` bytes can spell. -/
def capacity : (width : Nat) → Nat
  | 0 => 1
  | width + 1 => capacity width * 256

/-- A number is written in as many bytes as it is given. -/
@[simp] theorem length_ofNat (width n : Nat) : (ofNat width n).length = width := by
  induction width generalizing n with
  | zero => rfl
  | succ width ih => simp [ofNat, ih]

/-- The last byte is the least significant one. -/
@[simp] theorem toNat_append_singleton (bytes : Bytes) (b : UInt8) :
    toNat (bytes ++ [b]) = toNat bytes * 256 + b.toNat := by
  simp [toNat]

/-- What does not fit into the bytes is cut off. -/
theorem toNat_ofNat (width n : Nat) : toNat (ofNat width n) = n % capacity width := by
  induction width generalizing n with
  | zero => simp [ofNat, toNat, capacity, Nat.mod_one]
  | succ width ih =>
    have byte : (UInt8.ofNat n).toNat = n % 256 := by simp
    rw [ofNat, toNat_append_singleton, ih, byte, capacity, Nat.mul_comm (capacity width),
      Nat.mod_mul]
    omega

/-- Bytes are those of the number that they stand for. -/
theorem ofNat_toNat (bytes : Bytes) : ofNat bytes.length (toNat bytes) = bytes := by
  rw [← bytes.reverse_reverse]
  induction bytes.reverse with
  | nil => rfl
  | cons b front ih =>
    have quotient : (toNat front.reverse * 256 + b.toNat) / 256 = toNat front.reverse := by
      have := b.toNat_lt
      omega
    have last : UInt8.ofNat (toNat front.reverse * 256 + b.toNat) = b := by
      apply UInt8.toNat_inj.1
      have := b.toNat_lt
      simp
    rw [List.reverse_cons, List.length_append, List.length_singleton, ofNat,
      toNat_append_singleton, quotient, last, ih]

theorem capacity_pos (width : Nat) : 0 < capacity width := by
  induction width with
  | zero => exact Nat.one_pos
  | succ width ih => exact Nat.mul_pos ih (by decide)

/-- What bytes stand for fits into as many bytes. -/
theorem toNat_lt_capacity (bytes : Bytes) : toNat bytes < capacity bytes.length := by
  have h := toNat_ofNat bytes.length (toNat bytes)
  rw [ofNat_toNat] at h
  exact h ▸ Nat.mod_lt _ (capacity_pos _)

end BigEndian

end ClassFormat
