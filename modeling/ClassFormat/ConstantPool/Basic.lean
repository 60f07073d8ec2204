import ClassFormat.Failure.Basic

/-!
# The constant pool

The indexed table of constants that all other parts of a class file refer to. Index 0
holds nothing, and neither does the index after a `Long` or a `Double`.

* `ConstantPool.get?`: the constant at an index;
* `ConstantPool.require`, `ConstantPool.requireOptional`: the constant at an index that
  has to be of certain kinds, the latter taking index 0 for absence;
* `ConstantPool.text`, `ConstantPool.className` and so on: what a reference stands for.

Every look-up that can fail is `ConstantPool.select`, so every failed one is a
`Fault.constantIndex`.
-/

namespace ClassFormat

/-- A constant pool. -/
structure ConstantPool where
  /-- What each index holds, from index 0 on. -/
  slots : Array (Option Constant)
  deriving DecidableEq

namespace ConstantPool

/-- The pool without constants. -/
def empty : ConstantPool := ⟨#[none]⟩

/-- The number of indices, those that hold nothing included. -/
def count (pool : ConstantPool) : Nat := pool.slots.size

/-- The constant at an index. -/
def get? (pool : ConstantPool) (index : UInt16) : Option Constant :=
  pool.slots[index.toNat]?.join

/-- All constants with their indices, in ascending order. -/
def entries (pool : ConstantPool) : List (UInt16 × Constant) :=
  pool.slots.toList.zipIdx.filterMap fun (slot, index) =>
    slot.map fun constant => (UInt16.ofNat index, constant)

variable {α : Type}

/-- What `pick` takes from the constant at an index; a constant it takes nothing from is
    refused as being of none of the `expected` kinds. -/
def select (pool : ConstantPool) (index : UInt16) (expected : List Constant.Kind)
    (pick : Constant → Option α) : Except Failure α :=
  let bad (problem : BadIndex) : Except Failure α :=
    (Fault.constantIndex index expected problem).raise
  if index = 0 then bad .zero
  else
    match pool.slots[index.toNat]? with
    | none => bad (.outOfRange pool.count)
    | some none => bad .unusable
    | some (some constant) =>
      match pick constant with
      | some a => .ok a
      | none => bad (.wrongKind constant.kind)

/-- The constant at an index, which has to be of one of the kinds. -/
def require (pool : ConstantPool) (index : UInt16) (kinds : List Constant.Kind) :
    Except Failure Constant :=
  pool.select index kinds fun constant => if constant.kind ∈ kinds then some constant else none

/-- The constant at an index, which has to be of the kind, or nothing for index 0. -/
def requireOptional (pool : ConstantPool) (index : UInt16) (kind : Constant.Kind) :
    Except Failure (Option Constant) :=
  if index = 0 then .ok none else return some (← pool.require index [kind])

/-- The text at an index. -/
def text (pool : ConstantPool) (index : UInt16) : Except Failure Text :=
  pool.select index [.utf8] fun
    | .utf8 t => some t
    | _ => none

/-- The text of the `String` at an index. -/
def string (pool : ConstantPool) (index : UInt16) : Except Failure Text := do
  pool.text (← pool.select index [.string] fun
    | .string i => some i
    | _ => none)

/-- The name of the `Class` at an index. -/
def className (pool : ConstantPool) (index : UInt16) : Except Failure Text := do
  pool.text (← pool.select index [.classref] fun
    | .classref i => some i
    | _ => none)

/-- The name of the `Module` at an index. -/
def moduleName (pool : ConstantPool) (index : UInt16) : Except Failure Text := do
  pool.text (← pool.select index [.module] fun
    | .module i => some i
    | _ => none)

/-- The name of the `Package` at an index. -/
def packageName (pool : ConstantPool) (index : UInt16) : Except Failure Text := do
  pool.text (← pool.select index [.package] fun
    | .package i => some i
    | _ => none)

/-- The name and the descriptor of the `NameAndType` at an index. -/
def nameAndType (pool : ConstantPool) (index : UInt16) : Except Failure (Text × Text) := do
  let (name, descriptor) ← pool.select index [.nameAndType] fun
    | .nameAndType i j => some (i, j)
    | _ => none
  return (← pool.text name, ← pool.text descriptor)

/-- Whether an index holds exactly the text. -/
def holdsText (pool : ConstantPool) (index : UInt16) (t : Text) : Bool :=
  match pool.get? index with
  | some (.utf8 t') => t' == t
  | _ => false

/-- The first index that holds exactly the text. -/
def findText? (pool : ConstantPool) (t : Text) : Option UInt16 :=
  (pool.entries.find? fun (_, constant) => constant == .utf8 t).map Prod.fst

end ConstantPool

end ClassFormat
