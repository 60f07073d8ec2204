import ClassFormat.Archive.Basic

/-!
# Directories of archives

Where an archive has the records of its directory. The record at the end tells it; an
archive with more members or bytes than that record can count has a wide end record before
it, which a locator leads to.

* `Archive.directory?`: the directory of an end record.

An archive may stand behind other bytes. Then all offsets it states are too small by the
number of these bytes, `Directory.base`, which is found by looking for the first record of
the directory from the stated offset on.
-/

namespace ClassFormat

namespace Archive

/-- Where the records of a directory are. -/
structure Directory where
  /-- What all stated offsets count from. -/
  base : Nat
  /-- The offset of the first record. -/
  start : Nat
  /-- The number of records. -/
  count : Nat

/-- The directory of the end record at the offset `finish`. -/
def plainDirectory? (a : Archive) (finish : Nat) : Option Directory := do
  guard ((← a.number? (finish + 4) 2) = (← a.number? (finish + 6) 2))
  let count ← a.number? (finish + 8) 2
  let total ← a.number? (finish + 10) 2
  let stated ← a.number? (finish + 16) 4
  if total = 0 then
    -- With no record to look for, the directory is taken to end where the end record starts.
    let base := finish - stated
    return ⟨base, stated + base, count⟩
  else
    guard (stated < finish)
    let isRecord (offset : Nat) := if a.holds directoryMark offset then some offset else none
    let start ← firstSome isRecord stated (finish - stated)
    return ⟨start - stated, start, count⟩

/-- The offset of a wide end record, if one is at the offset `finish` and reaches up to the
    locator, which states the part `disk` of the archive. -/
def wideEnd? (a : Archive) (locator disk finish : Nat) : Option Nat := do
  guard (a.holds wideEndMark finish)
  let length ← a.number? (finish + 4) 8
  -- The stated length leaves out the mark and the length itself.
  guard (44 ≤ length && length + 12 = locator - finish)
  guard ((← a.number? (finish + 20) 4) = disk)
  let total ← a.number? (finish + 32) 8
  let stated ← a.number? (finish + 48) 8
  guard (total * 46 + stated ≤ finish)
  return finish

/-- The directory of a large archive whose locator is at an offset. -/
def wideDirectory? (a : Archive) (locator : Nat) : Option Directory := do
  let disk ← a.number? (locator + 4) 4
  let statedFinish ← a.number? (locator + 8) 8
  guard (statedFinish < locator && (← a.number? (locator + 16) 4) ≤ 1)
  let finish ← firstSome (a.wideEnd? locator disk) statedFinish (locator - statedFinish)
  let base := finish - statedFinish
  let total ← a.number? (finish + 32) 8
  guard ((← a.number? (finish + 24) 8) ≤ total)
  guard ((← a.number? (finish + 14) 2) ≤ (← a.number? (finish + 12) 2))
  guard ((← a.number? (finish + 16) 4) = (← a.number? (finish + 20) 4))
  return ⟨base, (← a.number? (finish + 48) 8) + base, total⟩

/-- The directory of the end record at the offset `finish`, if that is one and the comment
    that follows it is all there. -/
def directory? (a : Archive) (finish : Nat) : Option Directory := do
  guard (a.holds endMark finish)
  let commentLength ← a.number? (finish + 20) 2
  guard (finish + 22 + commentLength ≤ a.size)
  -- Numbers that are too large are replaced by the greatest one of the field.
  let overflows := (← a.number? (finish + 10) 2) = 0xFFFF ||
    (← a.number? (finish + 16) 4) = 0xFFFFFFFF
  if overflows && 20 ≤ finish && a.holds locatorMark (finish - 20) then
    a.wideDirectory? (finish - 20)
  else a.plainDirectory? finish

end Archive

end ClassFormat
