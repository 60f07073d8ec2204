import ClassFormat.Annotation.TargetType
import ClassFormat.Annotation.TypePath
import ClassFormat.Attribute.Kind
import ClassFormat.Instruction.Basic
import ClassFormat.Text.ModifiedUtf8

/-!
# Failures

Why a class file could not be read, written or edited. A `Failure` is a chain of causes
from the outermost to the innermost. A cause is either a `Fault`, which says what is
wrong, or a `Note`, which says where it was found or why it matters.

* `Failure.fault?`: the outermost fault of the chain, by which failures are told apart;
* `Failure.within`, `Failure.because`: a failure with one more outer cause.

The words of all of them are in `ClassFormat.Failure.Message`.
-/

namespace ClassFormat

/-- Why an index of the constant pool is refused. -/
inductive BadIndex where
  | zero
  | outOfRange (count : Nat)
  /-- The second slot of a `Long` or `Double`. -/
  | unusable
  | wrongKind (found : Constant.Kind)
  deriving DecidableEq

/-- What a code offset is used for. -/
inductive OffsetRole where
  | handlerStart
  | handlerEntry
  | handlerRange
  | lineNumber
  | localVariable
  | localVarTarget
  | offsetTarget
  | typeArgumentTarget
  | stackMapFrame
  | uninitialized
  deriving DecidableEq

/-- A byte of the code array that has to be zero. -/
inductive ReservedByte where
  | tableSwitchPadding
  | lookupSwitchPadding
  | invokeInterfaceFourth
  | invokeDynamicThird
  | invokeDynamicFourth
  deriving DecidableEq

/-- How the contents of an attribute, or what is written as one, break the rules. -/
inductive Malformation where
  | codeLength (length : Nat)
  | instructionCut (offset : Nat)
  | reservedByte (which : ReservedByte) (found : UInt8)
  | arrayType (code : UInt8)
  | switchBounds (low high : Int32)
  | switchSize (low high : Int32) (offsets : Nat)
  | negativePairs (count : Int32)
  | zeroCount
  | zeroDimensions
  | operandMismatch (operands : Operands) (mnemonic : String) (layout : OperandLayout)
  | branchToNowhere (mnemonic : String) (offset : UInt32) (target : Int)
  | lostTarget (mnemonic : String) (offset : UInt32) (target : Int)
  | ambiguousTarget (mnemonic : String) (offset : UInt32) (target : Int)
  | notAnInstruction (role : OffsetRole) (offset codeLength : Nat)
  | notAnEnd (role : OffsetRole) (offset codeLength : Nat)
  | emptyHandlerRange (startPc endPc : UInt16)
  | offsetOutsideCode (location : Location)
  | frameType (type : UInt8)
  | verificationType (tag : UInt8)
  | sameFrameDelta (delta : UInt8)
  | sameOneItemFrameDelta (delta : UInt8)
  | choppedLocals (count : UInt8)
  | appendedLocals (count : Nat)
  | elementDepth
  | elementTag (tag : UInt8) (offset : Nat)
  | supertypeIndex (index : UInt16) (interfaces : Nat)
  | handlerIndex (index : UInt16) (handlers : Nat)
  | throwsIndex (index : UInt16) (exceptions : Nat)
  | pathKind (kind : UInt8)
  | pathArgument (step : TypePath.Step) (argument : UInt8)
  | targetForm (target : TargetType) (found : TargetForm)
  | attributeName (index : UInt16) (kind : Attribute.Kind)
  | trailingData (length offset : Nat)
  deriving DecidableEq

/-- How a constant breaks the rules. -/
inductive ConstantDefect where
  | emptyPool
  | text (defect : ModifiedUtf8.Defect)
  | noSecondSlot (kind : Constant.Kind)
  | referenceKind (referenceKind : UInt8)
  deriving DecidableEq

/-- What is wrong. -/
inductive Fault where
  /-- The data ends too early. -/
  | truncated (offset needed available : Nat)
  | constantIndex (index : UInt16) (expected : List Constant.Kind) (problem : BadIndex)
  /-- An attribute is longer or shorter than it declares. -/
  | lengthMismatch (kind : Attribute.Kind) (declared : UInt32) (actual : Nat)
  | unknownTargetType (value : UInt8)
  | misplacedTargetType (value : UInt8) (location : Location)
  | opcode (opcode : UInt8) (offset : Nat)
  | malformed (how : Malformation)
  | constant (index : UInt16) (defect : ConstantDefect)
  | constantTag (tag : UInt8) (index : UInt16)
  | magic (found : UInt32)
  | bootstrapMethod (index : UInt16) (count : Nat)
  deriving DecidableEq

/-- The width of a written count. -/
inductive CountWidth where
  | u1
  | u2
  | u4
  deriving DecidableEq

/-- A part of the description of a module. -/
inductive ModulePart where
  | requires
  | exports
  | opens
  | uses
  | provides
  deriving DecidableEq

/-- Where a fault was found, why it matters, or a refusal that has no kind of its own. -/
inductive Note where
  | readingPool
  | readingConstant (index offset : Nat)
  | inConstant (index : UInt16) (constant : Constant)
  | inDynamicConstant (index : UInt16)
  | readingThisClass
  | readingSuperClass
  | readingInterfaces
  | inClass (name : Text)
  | inMember (location : Location) (name descriptor : Text)
  | readingAttributeName (offset : Nat)
  | readingAttributeBody (name : Text) (offset : Nat)
  | readingAttribute (kind : Attribute.Kind) (offset : Nat)
  | decodingInstruction (offset : Nat)
  | inHandler (index : Nat)
  | readingFrame (index : Nat)
  | inFrame (index : Nat)
  | inBootstrapMethod (index : Nat)
  | inRecordComponent (name : Text)
  | inModulePart (part : ModulePart)
  | describingModule
  | inParameterAnnotations (parameter : Nat)
  | readingAnnotationAt (index : Nat)
  | readingAnnotationType
  | inAnnotationOf (type : Text)
  | inElementValue (tag : UInt8) (offset : Nat)
  | readingTypeAnnotationAt (index : Nat)
  | inTargetInfo (target : TargetType) (offset : Nat)
  /-- A constant of another kind was found than the one that was looked up. -/
  | resolvedInstead (constant : Constant) (kind : Constant.Kind)
  | replacingConstant (index : UInt16)
  | poolFull (constant : Constant) (index : Nat)
  | slotsDiffer (old : Constant.Kind) (index : UInt16) (new : Constant.Kind)
  | namelessAttribute
  | writingConstant (index : UInt16)
  | textTooLong
  | writingMember (location : Location) (name : String)
  | writingAttribute (kind : Option Attribute.Kind)
  | encodingInstruction (position : Nat)
  | narrowConstantIndex
  | narrowLocalIndex
  | narrowIncrementIndex
  | narrowIncrementAmount (amount : Int16)
  | shortBranch (displacement : Int)
  | wideBranch (displacement : Int)
  | tooManyPairs
  | codeTooLong
  /-- A count that its field cannot hold. -/
  | countTooLarge (count : Nat) (width : CountWidth)
  /-- A number above the range of its field. -/
  | tooLarge
  /-- A number below the range of its field. -/
  | tooSmall
  deriving DecidableEq

/-- A link of the chain of a failure. -/
inductive Cause where
  | fault (fault : Fault)
  | note (note : Note)
  deriving DecidableEq

/-- A chain of causes, the outermost first. -/
structure Failure where
  /-- The outermost cause. -/
  head : Cause
  /-- The causes behind it. -/
  behind : List Cause := []
  deriving DecidableEq

namespace Failure

/-- The failure that a fault is by itself. -/
def ofFault (fault : Fault) : Failure := ⟨.fault fault, []⟩

/-- The failure that a note is by itself. -/
def ofNote (note : Note) : Failure := ⟨.note note, []⟩

/-- All causes, the outermost first. -/
def causes (f : Failure) : List Cause := f.head :: f.behind

/-- The failure behind one more note. -/
def within (note : Note) (f : Failure) : Failure := ⟨.note note, f.causes⟩

/-- The failure behind one more fault, which then tells it apart. -/
def because (fault : Fault) (f : Failure) : Failure := ⟨.fault fault, f.causes⟩

/-- The outermost fault of the chain. -/
def fault? (f : Failure) : Option Fault :=
  f.causes.findSome? fun
    | .fault fault => some fault
    | .note _ => none

@[simp] theorem fault?_ofFault (fault : Fault) : (ofFault fault).fault? = some fault := rfl

/-- A note by itself is no fault. -/
@[simp] theorem fault?_ofNote (note : Note) : (ofNote note).fault? = none := rfl

/-- A note about where a failure happened keeps its fault. -/
@[simp] theorem fault?_within (note : Note) (f : Failure) : (f.within note).fault? = f.fault? := rfl

@[simp] theorem fault?_because (fault : Fault) (f : Failure) :
    (f.because fault).fault? = some fault := rfl

/-- A computation whose failure gets one more note. -/
def inside {α : Type} (note : Note) (x : Except Failure α) : Except Failure α :=
  x.mapError (within note)

end Failure

/-- A check that leaves the state alone. -/
instance {σ : Type} : MonadLift (Except Failure) (EStateM Failure σ) where
  monadLift
    | .ok a => pure a
    | .error f => throw f

/-- Fails with a fault. -/
def Fault.raise {m : Type → Type} [MonadExceptOf Failure m] {α : Type} (fault : Fault) : m α :=
  throw (Failure.ofFault fault)

/-- Fails with a note that stands alone. -/
def Note.raise {m : Type → Type} [MonadExceptOf Failure m] {α : Type} (note : Note) : m α :=
  throw (Failure.ofNote note)

end ClassFormat
