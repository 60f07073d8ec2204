import ClassFormat.Text.Utf8

/-!
# Modified UTF-8

The form in which a class file stores text: a zero takes two bytes, and a code point
from U+10000 on takes the three bytes of each half of its UTF-16 pair.

* `ModifiedUtf8.encode`: the bytes of a text;
* `ModifiedUtf8.decode`: the text of a byte string, or its first `Defect`. Bytes that
  are standard UTF-8 are taken as such, so a raw zero or a four byte sequence is
  accepted in a string that has no other peculiarity.
-/

namespace ClassFormat

namespace ModifiedUtf8

/-- The bytes of a UTF-16 unit. -/
def encodeUnit (n : Nat) : Bytes :=
  if n = 0 then [0xC0, 0x80]
  else if n < 0x80 then [UInt8.ofNat n]
  else if n < 0x800 then Utf8.spellTwo n
  else Utf8.spellThree n

/-- The bytes of a code point: those of its one or two UTF-16 units. -/
def encodePoint (c : CodePoint) : Bytes :=
  if c.val < 0x10000 then encodeUnit c.val
  else encodeUnit (0xD800 + (c.val - 0x10000) / 1024) ++
    encodeUnit (0xDC00 + (c.val - 0x10000) % 1024)

/-- The bytes of a text. -/
def encode (t : Text) : Bytes := t.flatMap encodePoint

/-- What is wrong with a sequence. -/
inductive Problem where
  /-- The bytes end in the middle of it. -/
  | incomplete
  /-- Its first `length` bytes belong to no sequence. -/
  | invalid (length : Nat)
  deriving DecidableEq

/-- The first sequence of a byte string that stands for no code point. -/
structure Defect where
  /-- Where it starts. -/
  index : Nat
  /-- What is wrong with it. -/
  problem : Problem
  deriving DecidableEq

/-- The defect in words. -/
def Defect.message : Defect → String
  | ⟨index, .incomplete⟩ => s!"incomplete utf-8 byte sequence from index {index}"
  | ⟨index, .invalid length⟩ => s!"invalid utf-8 sequence of {length} bytes from index {index}"

/-- The code point of two UTF-16 halves, each given by the last two of its three bytes. -/
def pair (b c e f : UInt8) : CodePoint :=
  CodePoint.ofNat (0x10000 + (b.toNat % 16 * 64 + c.toNat % 64) * 1024 +
    (e.toNat % 16 * 64 + f.toNat % 64))

/-- The sequence that starts with `a`: one of at most three bytes, or the six bytes of
    a high surrogate directly followed by a low one. -/
def sequence (a : UInt8) (tail : Bytes) : Except Problem (CodePoint × Nat) :=
  if a = 0 then .error (.invalid 1)
  else if a < 0x80 then .ok (CodePoint.ofNat a.toNat, 0)
  else
    match tail with
    | [] => .error .incomplete
    | b :: tail =>
      if a = 0xC0 then
        -- Only zero has a form that is longer than it need be.
        if b = 0x80 then .ok (CodePoint.ofNat 0, 1) else .error (.invalid 1)
      else if !Utf8.isContinuation b then .error (.invalid 1)
      else if 0xC2 ≤ a && a ≤ 0xDF then .ok (Utf8.two a b, 1)
      else if 0xE0 ≤ a && a ≤ 0xEF then
        match tail with
        | [] => .error .incomplete
        | c :: tail =>
          if !Utf8.isContinuation c then .error (.invalid 2)
          else if a = 0xE0 && b < 0xA0 then .error (.invalid 1)
          else if a = 0xED && 0xA0 ≤ b && b ≤ 0xAF then
            -- A high surrogate stands for itself unless a low one follows.
            match tail with
            | d :: e :: f :: _ =>
              if d = 0xED && 0xB0 ≤ e && e ≤ 0xBF && Utf8.isContinuation f
                then .ok (pair b c e f, 5)
              else .ok (Utf8.three a b c, 2)
            | _ => .ok (Utf8.three a b c, 2)
          else .ok (Utf8.three a b c, 2)
      else .error (.invalid 1)

/-- The text of a byte string: as standard UTF-8 if it is that, otherwise sequence by
    sequence. -/
def decode (bytes : Bytes) : Except Defect Text :=
  match Utf8.decode? false bytes with
  | some t => .ok t
  | none => (Utf8.sequences sequence 0 [] bytes).mapError fun (index, problem) => ⟨index, problem⟩

/-- A zero takes two bytes, and is read back from them. -/
example : encode [0] = [0xC0, 0x80] ∧ (decode [0xC0, 0x80]).toOption = some [0] := by decide +kernel

/-- A raw zero is accepted, but is written in two bytes. -/
example : (decode [0x00]).toOption = some [0] := by decide +kernel

/-- The two halves of a pair are joined. -/
example : (decode [0xED, 0xA0, 0x80, 0xED, 0xB0, 0x80]).toOption = some [0x10000] := by
  decide +kernel

end ModifiedUtf8

end ClassFormat
