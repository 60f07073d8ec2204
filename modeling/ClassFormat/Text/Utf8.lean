import ClassFormat.BigEndian
import ClassFormat.Text.Basic

/-!
# UTF-8

The byte form of text: one to four bytes for a code point. Standard UTF-8 has no
form for a surrogate; the generalised form gives it three bytes like any other code
point of its size.

* `Utf8.encode`: the generalised form of a text;
* `Utf8.decode?`: the text of a byte string, surrogates being refused or not;
* `Utf8.decodeLossy`: the text of a byte string, U+FFFD for what is no standard form.

`Utf8.sequences` is the loop that every decoder here shares: it cuts the bytes into
sequences, each of which is judged on its first byte and what follows.
-/

namespace ClassFormat

namespace Utf8

/-- A byte that continues a sequence: `80` to `BF`. -/
def isContinuation (b : UInt8) : Bool := 0x80 ≤ b && b ≤ 0xBF

/-- The code point of a two byte sequence. -/
def two (a b : UInt8) : CodePoint :=
  CodePoint.ofNat (a.toNat % 32 * 64 + b.toNat % 64)

/-- The code point of a three byte sequence. -/
def three (a b c : UInt8) : CodePoint :=
  CodePoint.ofNat (a.toNat % 16 * 4096 + b.toNat % 64 * 64 + c.toNat % 64)

/-- The code point of a four byte sequence. -/
def four (a b c d : UInt8) : CodePoint :=
  CodePoint.ofNat (a.toNat % 8 * 262144 + b.toNat % 64 * 4096 + c.toNat % 64 * 64 + d.toNat % 64)

/-- The two byte form of `n`, meant for `n < 0x800`. -/
def spellTwo (n : Nat) : Bytes :=
  [UInt8.ofNat (0xC0 + n / 64), UInt8.ofNat (0x80 + n % 64)]

/-- The three byte form of `n`, meant for `n < 0x10000`. -/
def spellThree (n : Nat) : Bytes :=
  [UInt8.ofNat (0xE0 + n / 4096), UInt8.ofNat (0x80 + n / 64 % 64), UInt8.ofNat (0x80 + n % 64)]

/-- The bytes of a code point, a surrogate taking three. -/
def encodePoint (c : CodePoint) : Bytes :=
  if c.val < 0x80 then [UInt8.ofNat c.val]
  else if c.val < 0x800 then spellTwo c.val
  else if c.val < 0x10000 then spellThree c.val
  else UInt8.ofNat (0xF0 + c.val / 262144) :: UInt8.ofNat (0x80 + c.val / 4096 % 64) ::
    UInt8.ofNat (0x80 + c.val / 64 % 64) :: [UInt8.ofNat (0x80 + c.val % 64)]

/-- The bytes of a text, a surrogate taking three. -/
def encode (t : Text) : Bytes := t.flatMap encodePoint

/-- Cuts `bytes` into sequences. `next` is given the first byte of a sequence and all
    that follows it, and answers with the code point and the number of further bytes
    that belong to it. A failure is reported with the index of its sequence, `index`
    being that of the first byte; `done` holds the code points so far, last one first. -/
def sequences {ε : Type} (next : UInt8 → Bytes → Except ε (CodePoint × Nat))
    (index : Nat) (done : Text) : Bytes → Except (Nat × ε) Text
  | [] => .ok done.reverse
  | b :: tail =>
    match next b tail with
    | .error e => .error (index, e)
    | .ok (c, more) => sequences next (index + 1 + more) (c :: done) (tail.drop more)
  termination_by bytes => bytes.length
  decreasing_by rw [List.length_drop, List.length_cons]; omega

/-- The sequence that starts with `a`: the shortest form of a code point, a surrogate
    only if `surrogates` allows it. -/
def sequence (surrogates : Bool) (a : UInt8) (tail : Bytes) : Except Unit (CodePoint × Nat) :=
  if a < 0x80 then .ok (CodePoint.ofNat a.toNat, 0)
  else if 0xC2 ≤ a && a ≤ 0xDF then
    match tail with
    | b :: _ => if isContinuation b then .ok (two a b, 1) else .error ()
    | [] => .error ()
  else if 0xE0 ≤ a && a ≤ 0xEF then
    match tail with
    | b :: c :: _ =>
      -- After `E0` a form of two bytes would do, after `ED` come the surrogates.
      if isContinuation b && isContinuation c && (a != 0xE0 || 0xA0 ≤ b) &&
          (surrogates || a != 0xED || b ≤ 0x9F) then .ok (three a b c, 2)
      else .error ()
    | _ => .error ()
  else if 0xF0 ≤ a && a ≤ 0xF4 then
    match tail with
    | b :: c :: d :: _ =>
      -- After `F0` a form of three bytes would do, after `F4` come numbers above U+10FFFF.
      if isContinuation b && isContinuation c && isContinuation d && (a != 0xF0 || 0x90 ≤ b) &&
          (a != 0xF4 || b ≤ 0x8F) then .ok (four a b c d, 3)
      else .error ()
    | _ => .error ()
  else .error ()

/-- The text of a byte string in UTF-8, generalised if `surrogates` says so. -/
def decode? (surrogates : Bool) (bytes : Bytes) : Option Text :=
  (sequences (sequence surrogates) 0 [] bytes).toOption

/-- Whether `b` can follow the first byte `a` of a sequence of three or four bytes. -/
def mayFollow (a b : UInt8) : Bool :=
  if a = 0xE0 then 0xA0 ≤ b && b ≤ 0xBF
  else if a = 0xED then 0x80 ≤ b && b ≤ 0x9F
  else if a = 0xF0 then 0x90 ≤ b && b ≤ 0xBF
  else if a = 0xF4 then 0x80 ≤ b && b ≤ 0x8F
  else 0xE0 ≤ a && a ≤ 0xF4 && isContinuation b

/-- How many of the bytes after `a` belong to the sequence that starts with it and is then
    broken off. -/
def brokenTail (a : UInt8) : Bytes → Nat
  | b :: c :: _ => if mayFollow a b then (if 0xF0 ≤ a && isContinuation c then 2 else 1) else 0
  | [b] => if mayFollow a b then 1 else 0
  | [] => 0

/-- The text of a byte string in standard UTF-8. A sequence that is broken off, and any other
    byte that belongs to no sequence, stand for one U+FFFD each. -/
def decodeLossy (bytes : Bytes) : Text :=
  let next (a : UInt8) (tail : Bytes) : Except Empty (CodePoint × Nat) :=
    match sequence false a tail with
    | .ok found => .ok found
    | .error () => .ok (CodePoint.ofNat 0xFFFD, brokenTail a tail)
  match sequences next 0 [] bytes with
  | .ok t => t

/-- Two bytes that start nothing, one broken sequence of two bytes, and a letter. -/
example : decodeLossy [0xFF, 0xC3, 0xE2, 0x82, 0x41] = [0xFFFD, 0xFFFD, 0xFFFD, 0x41] := by
  decide +kernel

end Utf8

end ClassFormat
