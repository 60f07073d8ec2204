import ClassFormat.ConstantPool.Basic

/-!
# Editing the constant pool

Two edits: `ConstantPool.push` adds a constant at the end, `ConstantPool.replace` puts
another one in the place of an old one. Neither moves a constant, and neither leaves a
reference that does not resolve (`ConstantPool.validate`).
-/

namespace ClassFormat

namespace ConstantPool

/-- The largest number of indices of a pool. -/
def maxCount : Nat := 65535

/-- Checks that the references of a constant resolve; `index` is where it is, for the
    message of a failure. -/
def checkReferences (pool : ConstantPool) (index : UInt16) (constant : Constant) :
    Except Failure Unit :=
  match constant.references with
  | .error kind => (Fault.constant index (.referenceKind kind)).raise
  | .ok references =>
    references.forM fun (reference, kinds) =>
      Failure.inside (.inConstant index constant) do
        let _ ← pool.require reference kinds

/-- Checks that every reference of every constant resolves. -/
def validate (pool : ConstantPool) : Except Failure Unit :=
  pool.entries.forM fun (index, constant) => pool.checkReferences index constant

/-- What a constant takes up: its own slot, and an empty one if it is a wide one. -/
def slotsOf (constant : Constant) : List (Option Constant) :=
  if constant.kind.slots = 2 then [some constant, none] else [some constant]

/-- The pool with one more constant at the end. -/
def append (pool : ConstantPool) (constant : Constant) : ConstantPool :=
  ⟨pool.slots ++ slotsOf constant⟩

/-- Checks that a constant can be added: there is room for it, and its references resolve
    already. -/
def checkPush (pool : ConstantPool) (constant : Constant) : Except Failure Unit := do
  if pool.count + constant.kind.slots > maxCount then
    (Note.poolFull constant pool.count).raise
  pool.checkReferences (UInt16.ofNat pool.count) constant

/-- Adds a constant. Gives the new pool and the index of the constant. -/
def push (pool : ConstantPool) (constant : Constant) : Except Failure (ConstantPool × UInt16) := do
  pool.checkPush constant
  let index := UInt16.ofNat pool.count
  return (pool.append constant, index)

/-- Replaces the constant at an index by one that takes up as many slots, if all
    references still resolve afterwards. Gives the new pool and the old constant. -/
def replace (pool : ConstantPool) (index : UInt16) (constant : Constant) :
    Except Failure (ConstantPool × Constant) := do
  let old ← pool.require index Constant.Kind.all
  if old.kind.slots ≠ constant.kind.slots then
    (Note.slotsDiffer old.kind index constant.kind).raise
  -- Any constant may refer to the one that is replaced, so all of them are checked.
  let edited : ConstantPool := ⟨pool.slots.setIfInBounds index.toNat (some constant)⟩
  Failure.inside (.replacingConstant index) edited.validate
  return (edited, old)

/-- The index of a text, which is added if the pool does not hold it. -/
def intern (pool : ConstantPool) (t : Text) : Except Failure (ConstantPool × UInt16) :=
  match pool.findText? t with
  | some index => .ok (pool, index)
  | none => pool.push (.utf8 t)

end ConstantPool

end ClassFormat
