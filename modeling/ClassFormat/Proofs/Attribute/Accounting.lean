import Mathlib
import ClassFormat.Attribute.Read
import ClassFormat.ConstantPool.Codec
import ClassFormat.Proofs.Accounting

/-!
# What failures of parts of a class file tell

Constants, instructions and the contents of attributes that hold no attributes themselves: each of
their readers takes off the first of the bytes that it is given, and fails for a fault that accounts
for these.

* `ConstantPool.reports_read`: pools, the references between their constants included;
* `Instruction.reports_decode`: code arrays, which are given a part of the bytes;
* `ElementValue.reports_readWithin`, by induction on the levels that are left;
* `Attribute.reports_readLeaf`: contents, whatever their kind.
-/

namespace ClassFormat

open Reader

variable {f : Failure}

/-! ### Constants -/

namespace ConstantPool

variable (pool : ConstantPool)

/-- A constant that refers to something else than it should is a fault of contents. -/
theorem settled_of_checkReferences {index : UInt16} {constant : Constant}
    (h : pool.checkReferences index constant = .error f) : f.Settled := by
  unfold checkReferences at h
  split at h
  · cases h
    exact Fault.settled fun _ => trivial
  · refine Failure.OfContents.settled ((Judges.forM fun reference _ => ?_).refusal h)
    exact .inside ((pool.judges_require _ _).bind fun _ => .pure _)

/-- That the pool refers to something else than it should tells nothing of where the bytes end. -/
theorem settled_of_validate (h : pool.validate = .error f) : f.Settled := by
  obtain ⟨entry, -, hfail⟩ := exists_of_forM_eq_error h
  exact pool.settled_of_checkReferences hfail

/-- An index fails for want of bytes, or for what it refers to. -/
theorem reports_index (kinds : List Constant.Kind) : (pool.readIndex kinds).Reports :=
  reports_u2.bind fun _ => (Reports.check (pool.judges_require _ _)).bind fun _ => .pure _

theorem reports_optionalIndex (kind : Constant.Kind) : (pool.readOptionalIndex kind).Reports :=
  reports_u2.bind fun _ => (Reports.check (pool.judges_requireOptional _ _)).bind fun _ => .pure _

theorem reports_indices (kind : Constant.Kind) : (pool.readIndices kind).Reports :=
  .table fun _ => pool.reports_index _

end ConstantPool

/-- A constant fails for want of bytes, for its tag, or for a text that is not encoded as it should
    be. -/
theorem Constant.reports_read (index : UInt16) : (read index).Reports := by
  refine reports_u1.bind fun tag => ?_
  split
  next => exact .raise fun _ => trivial
  next kind _ =>
    cases kind with
    | utf8 =>
      refine reports_u2.bind fun length => (reports_bytes _).bind fun bytes => ?_
      split
      · exact .pure _
      · exact .raise fun _ => trivial
    | integer => exact reports_i4.map
    | float => exact reports_u4.map
    | long => exact reports_i8.map
    | double => exact reports_u8.map
    | methodHandle => exact reports_u1.bind fun _ => reports_u2.map
    | classref | string | methodType | module | package => exact reports_u2.map
    | fieldref | methodref | interfaceMethodref | nameAndType | dynamic | invokeDynamic =>
      exact reports_u2.bind fun _ => reports_u2.map

namespace ConstantPool

/-- The slots of a pool fail as one of the constants does, or because a wide one does not fit into
    those that are left. -/
theorem reports_readSlots (left : Nat) (done : Array (Option Constant)) :
    (readSlots done left).Reports := by
  -- A wide constant takes up two of the slots that are left.
  induction left using Nat.strongRecOn generalizing done with
  | ind left ih =>
    cases left with
    | zero => exact .pure _
    | succ left =>
      rw [readSlots]
      refine .offset fun offset => (Constant.reports_read _).within.bind fun constant => ?_
      split
      · cases left with
        | zero => exact .raise fun _ => trivial
        | succ left => exact ih left (by omega) _
      · exact ih left (by omega) _

/-- A pool fails for its count, for a constant, or for what a constant refers to once all of them
    are read. -/
theorem reports_read : read.Reports := by
  refine reports_u2.bind fun count => ?_
  split
  next => exact .raise fun _ => trivial
  next left _ =>
    refine (reports_readSlots left #[none]).bind fun slots => ?_
    exact (Reports.of_settled (settled_of_validate _)).bind fun _ => .pure _

end ConstantPool

/-! ### Instructions -/

namespace Instruction

variable (pool : ConstantPool) {position : Nat}

/-- An instruction that is cut off is malformed, wherever the code ends. -/
theorem settled_cutOff {limit : Nat} (h : f.Accounts limit) : (cutOff position f).Settled := by
  unfold cutOff
  split
  next => exact fun limit' => ⟨_, Failure.fault?_because _ _, trivial⟩
  next hnot => exact h.settled hnot

/-- A reserved byte fails if it is missing or not 0. -/
theorem reports_readReserved (which : ReservedByte) : (readReserved which).Reports :=
  reports_u1.bind fun _ => .refuse (b := ()) (fun _ => trivial) (.pure _)

theorem reports_readPadding (which : ReservedByte) : (readPadding which position).Reports :=
  (Reports.times (fun _ => reports_readReserved which) _).map

/-- Operands fail for want of bytes, or for what they say. -/
theorem reports_readOperands (layout : OperandLayout) :
    (readOperands pool position layout).Reports := by
  cases layout with
  | none | wide => exact .pure _
  | byte => exact reports_i1.map
  | short => exact reports_i2.map
  | arrayType => exact reports_u1.bind fun _ => .refuse (b := ()) (fun _ => trivial) (.pure _)
  | narrowConstant kinds =>
    exact reports_u1.bind fun _ => (Reports.check (pool.judges_require _ _)).bind fun _ => .pure _
  | constant kinds => exact (pool.reports_index kinds).map
  | «local» => exact reports_u1.map
  | increment => exact reports_u1.bind fun _ => reports_i1.map
  | branch => exact reports_i2.map
  | branchWide => exact reports_i4.map
  | tableSwitch =>
    exact (reports_readPadding _).bind fun _ => reports_i4.bind fun _ => reports_i4.bind fun _ =>
      reports_i4.bind fun _ => .refuse (b := ()) (fun _ => trivial)
      (Reports.times (fun _ => reports_i4) _).map
  | lookupSwitch =>
    exact (reports_readPadding _).bind fun _ => reports_i4.bind fun _ => reports_i4.bind fun _ =>
      .refuse (b := ()) (fun _ => trivial) (Reports.times (fun _ => reports_i4.bind fun _ =>
      reports_i4.map) _).map
  | invokeInterface =>
    exact (pool.reports_index _).bind fun _ => reports_u1.bind fun _ =>
      .refuse (b := ()) (fun _ => trivial) ((reports_readReserved _).bind fun _ => .pure _)
  | invokeDynamic =>
    exact (pool.reports_index _).bind fun _ => (reports_readReserved _).bind fun _ =>
      (reports_readReserved _).bind fun _ => .pure _
  | multiANewArray =>
    exact (pool.reports_index _).bind fun _ => reports_u1.bind fun _ =>
      .refuse (b := ()) (fun _ => trivial) (.pure _)

/-- Wide operands fail for want of bytes, or because the instruction has no wide form. -/
theorem reports_readWide : (readWide position).Reports := by
  refine reports_u1.bind fun op => ?_
  split
  · exact reports_u2.map
  · exact reports_u2.bind fun _ => reports_i2.map
  · exact .raise fun _ => trivial

/-- An instruction fails for its opcode or for its operands. -/
theorem reports_read : (read pool position).Reports := by
  refine reports_u1.bind fun op => ?_
  split
  · exact .raise fun _ => trivial
  · exact reports_readWide
  · exact (reports_readOperands pool _).map

/-- No failure of an instruction tells where the code ends. -/
theorem settles_decodeFrom (start fuel : Nat) (done : List Instruction) :
    (decodeFrom pool start done fuel).Settles := by
  induction fuel generalizing done with
  | zero => exact .pure _
  | succ fuel ih =>
    refine ⟨fun {c f c'} h => ?_⟩
    rw [decodeFrom, get_bind] at h
    split at h
    · cases h
    · rcases error_of_bind h with hread | ⟨i, c₁, -, hnext⟩
      · obtain ⟨e, hcut, rfl⟩ := error_of_mapFailure hread
        obtain ⟨e', hinstruction, rfl⟩ := error_of_mapFailure hcut
        have haccounts : e'.Accounts c.stop := (reports_read pool).tells hinstruction
        exact settled_cutOff haccounts
      · exact (ih _).tells hnext

/-- Code that ends in the middle of an instruction is malformed, and not too short: its length is
    known. -/
theorem reports_decode (length : Nat) : (decode pool length).Reports := by
  refine .offset fun start => .map <| .offset fun start' =>
    (reports_bytes length).bind fun code => ?_
  exact Settles.reports (settles_decodeFrom pool start length []).confined (.confined _ _ _)

end Instruction

/-! ### Rows of tables -/

variable (s : Surroundings) (pool : ConstantPool)

/-- A line fails for want of bytes, or if its offset is no start of an instruction. -/
theorem LineNumber.reports_read : (read s).Reports :=
  reports_u2.bind fun _ => reports_u2.bind fun _ =>
    (Reports.check (s.judges_ifCode fun map => map.judges_requireStart _ _)).bind fun _ => .pure _

/-- A local variable fails for want of bytes, for its names, or for its range. -/
theorem LocalVariable.reports_read : (read s).Reports :=
  reports_u2.bind fun _ => reports_u2.bind fun _ => reports_u2.bind fun _ =>
    reports_u2.bind fun _ => reports_u2.bind fun _ =>
    (Reports.check (s.pool.judges_require _ _)).bind fun _ =>
      (Reports.check (s.pool.judges_require _ _)).bind fun _ =>
        (Reports.check (s.judges_ifCode fun map => map.judges_requireRange _ _ _)).bind fun _ =>
        .pure _

/-- An inner class fails for want of bytes, or for the classes and the name that it refers to. -/
theorem InnerClass.reports_read : (read pool).Reports :=
  reports_u2.bind fun _ => reports_u2.bind fun _ => reports_u2.bind fun _ =>
    reports_u2.bind fun _ => (Reports.check (pool.judges_require _ _)).bind fun _ =>
      (Reports.check (pool.judges_requireOptional _ _)).bind fun _ =>
        (Reports.check (pool.judges_requireOptional _ _)).bind fun _ => .pure _

theorem BootstrapMethod.reports_read : (read pool).Reports :=
  (pool.reports_index _).bind fun _ => (Reports.table fun _ => pool.reports_index _).map

/-- A parameter fails for want of bytes, or for its name. -/
theorem MethodParameter.reports_read : (read pool).Reports :=
  reports_u2.bind fun _ => reports_u2.bind fun _ =>
    (Reports.check (pool.judges_requireOptional _ _)).bind fun _ => .pure _

namespace ModuleDescriptor

theorem Requires.reports_read : (read pool).Reports :=
  (pool.reports_index _).bind fun _ => reports_u2.bind fun _ => (pool.reports_optionalIndex _).map

theorem Package.reports_read : (read pool).Reports :=
  (pool.reports_index _).bind fun _ => reports_u2.bind fun _ => (pool.reports_indices _).map

theorem Provides.reports_read : (read pool).Reports :=
  (pool.reports_index _).bind fun _ => (pool.reports_indices _).map

/-- A module fails as one of its tables does. -/
theorem reports_read : (read pool).Reports :=
  (pool.reports_index _).bind fun _ => reports_u2.bind fun _ => (pool.reports_optionalIndex _).bind
    fun _ => (Reports.table fun _ => Requires.reports_read pool).within.bind fun _ =>
      (Reports.table fun _ => Package.reports_read pool).within.bind fun _ =>
        (Reports.table fun _ => Package.reports_read pool).within.bind fun _ =>
          (pool.reports_indices _).within.bind fun _ =>
            (Reports.table fun _ => Provides.reports_read pool).within.map

end ModuleDescriptor

/-! ### Annotations -/

/-- An annotation fails as its type, its names, or its values do. -/
theorem Annotation.reports_readWith {readValue : Reader ElementValue} (h : readValue.Reports) :
    (readWith pool readValue).Reports := by
  refine reports_u2.bind fun _ => (Reports.check (pool.judges_text _).inside).bind fun _ => .map <|
    .within <| .table fun _ => ?_
  exact reports_u2.bind fun _ => (Reports.check (pool.judges_require _ _)).bind fun _ => h.map

namespace ElementValue

/-- A constant value fails for want of bytes, or for the kind of what it refers to. -/
theorem reports_readConstant (code : UInt8) (offset : Nat) (kind : Constant.Kind) :
    (readConstant pool code offset kind).Reports :=
  reports_u2.bind fun _ => (Reports.check ((pool.judges_require _ _).bind fun _ =>
    .pure _).inside).bind fun _ => .pure _

/-- Values report, however many levels are left for them. -/
theorem reports_readWithin (levels : Nat) : (readWithin pool levels).Reports := by
  induction levels with
  | zero => exact .raise fun _ => trivial
  | succ levels ih =>
    rw [readWithin]
    refine .offset fun offset => reports_u1.bind fun code => ?_
    split
    · exact (reports_readConstant pool ..).map
    · split_ifs
      · exact (reports_readConstant pool ..).bind fun _ => (reports_readConstant pool ..).map
      · exact .map <| Annotation.reports_readWith pool ih
      · exact (Reports.table fun _ => ih).map
      · exact .raise fun _ => trivial

end ElementValue

namespace Annotation

theorem reports_read : (read pool).Reports :=
  reports_readWith pool (ElementValue.reports_readWithin pool _)

theorem reports_readList : (readList pool).Reports := .table fun _ => (reports_read pool).within

theorem reports_readParameters : (readParameters pool).Reports :=
  .shortTable fun _ => (reports_readList pool).within

end Annotation

/-- A step of a type path fails for want of bytes, or for a kind that there is not. -/
theorem TypePath.Step.reports_read : Step.read.Reports := by
  refine reports_u1.bind fun kind => reports_u1.bind fun argument => ?_
  have hplain (step : Step) : Reports (do
      if argument ≠ 0 then
        (Fault.malformed (.pathArgument step argument)).raise
      return step) := .refuse (b := ()) (fun _ => trivial) (.pure _)
  dsimp only
  split
  · exact hplain _
  · exact hplain _
  · exact hplain _
  · exact .pure _
  · exact .raise fun _ => trivial

/-- The range of a local variable fails for want of bytes, or if it does not lie in the code. -/
theorem LocalVarRange.reports_read (map : CodeMap) : (read map).Reports :=
  reports_u2.bind fun _ => reports_u2.bind fun _ => reports_u2.bind fun _ =>
    (Reports.check (map.judges_requireRange _ _ _)).bind fun _ => .pure _

/-- What a type annotation targets fails for want of bytes, or if it is not there. -/
theorem TargetInfo.reports_read (form : TargetForm) : (read s form).Reports := by
  cases form with
  | empty => exact .pure _
  | typeParameter | formalParameter => exact reports_u1.map
  | supertype => exact reports_u2.bind fun _ => .refuse (b := ()) (fun _ => trivial) (.pure _)
  | typeParameterBound => exact reports_u1.bind fun _ => reports_u1.map
  | throws => exact reports_u2.map
  | localVar =>
    exact (Reports.check s.judges_code).bind fun map =>
      (Reports.table fun _ => LocalVarRange.reports_read map).map
  | handler =>
    exact reports_u2.bind fun _ => (Reports.check s.judges_code).bind fun _ =>
      .refuse (b := ()) (fun _ => trivial) (.pure _)
  | offset =>
    exact reports_u2.bind fun _ => (Reports.check s.judges_code).bind fun map =>
      (Reports.check (map.judges_requireStart _ _)).bind fun _ => .pure _
  | typeArgument =>
    exact reports_u2.bind fun _ => reports_u1.bind fun _ => (Reports.check s.judges_code).bind
      fun map => (Reports.check (map.judges_requireStart _ _)).bind fun _ => .pure _

namespace TypeAnnotation

/-- A type annotation fails for its target type, or as one of its parts does. -/
theorem reports_read : (read s).Reports := by
  refine .offset fun offset => reports_u1.bind fun value => ?_
  split
  · exact .raise fun _ => trivial
  · exact .refuse (b := ()) (fun _ => trivial) <| (TargetInfo.reports_read s _).within.bind fun _ =>
      (Reports.shortTable fun _ => TypePath.Step.reports_read).bind fun _ => .map <|
        Annotation.reports_read _

theorem reports_readList : (readList s).Reports := .table fun _ => (reports_read s).within

end TypeAnnotation

/-! ### Stack maps -/

/-- A verification type fails for its tag, for its class, or for its offset. -/
theorem VerificationType.reports_read : (read s).Reports := by
  refine reports_u1.bind fun tag => ?_
  split
  case h_8 => exact (s.pool.reports_index _).map
  case h_9 =>
    exact reports_u2.bind fun _ =>
      (Reports.check (s.judges_ifCode fun map => map.judges_requireStart _ _)).bind fun _ => .pure _
  case h_10 => exact .raise fun _ => trivial
  all_goals exact .pure _

namespace StackMapFrame

/-- A frame fails for its type, or as one of its verification types does. -/
theorem reports_read : (read s).Reports := by
  have htype := VerificationType.reports_read s
  refine reports_u1.bind fun type => ?_
  dsimp only
  split_ifs
  · exact .pure _
  · exact htype.map
  · exact .raise fun _ => trivial
  · exact reports_u2.bind fun _ => htype.map
  · exact reports_u2.map
  · exact reports_u2.map
  · exact reports_u2.bind fun _ => (Reports.times (fun _ => htype) _).map
  · exact reports_u2.bind fun _ => (Reports.table fun _ => htype).bind fun _ =>
      (Reports.table fun _ => htype).map

/-- Frames fail as one of them does, or if the sum of their offsets is no start of an instruction.
    -/
theorem reports_readFrom (n index : Nat) (previous : Option Nat) (done : List StackMapFrame) :
    (readFrom s index previous done n).Reports := by
  induction n generalizing index previous done with
  | zero => exact .pure _
  | succ n ih =>
    refine (reports_read s).within.bind fun frame => .bind (.check ?_) fun _ => ih _ _ _
    exact (s.judges_ifCode fun map => map.judges_requireStart _ _).inside

theorem reports_readTable : (readTable s).Reports :=
  reports_u2.bind fun n => reports_readFrom s n.toNat 0 none []

end StackMapFrame

/-! ### Contents without attributes -/

/-- The body of an attribute that holds no others fails as its contents do. -/
theorem Attribute.reports_readLeaf (kind : Kind) : (readLeaf s kind).Reports := by
  cases kind with
  | code | record | sourceDebugExtension => exact reports_remaining.map
  | synthetic | deprecated => exact .pure _
  | constantValue | signature | sourceFile | moduleMainClass | nestHost =>
    exact (s.pool.reports_index _).map
  | exceptions | modulePackages | nestMembers | permittedSubclasses =>
    exact (s.pool.reports_indices _).map
  | stackMapTable => exact (StackMapFrame.reports_readTable s).map
  | innerClasses => exact (Reports.table fun _ => InnerClass.reports_read s.pool).map
  | enclosingMethod =>
    exact reports_u2.bind fun _ => reports_u2.bind fun _ =>
      (Reports.check (s.pool.judges_require _ _)).bind fun _ =>
      (Reports.check (s.pool.judges_requireOptional _ _)).bind fun _ => .pure _
  | lineNumberTable => exact (Reports.table fun _ => LineNumber.reports_read s).map
  | localVariableTable | localVariableTypeTable =>
    exact (Reports.table fun _ => LocalVariable.reports_read s).map
  | runtimeVisibleAnnotations | runtimeInvisibleAnnotations =>
    have hlist := Annotation.reports_readList s.pool
    exact hlist.map
  | runtimeVisibleParameterAnnotations | runtimeInvisibleParameterAnnotations =>
    have hparameters := Annotation.reports_readParameters s.pool
    exact hparameters.map
  | runtimeVisibleTypeAnnotations | runtimeInvisibleTypeAnnotations =>
    have hlist := TypeAnnotation.reports_readList s
    exact hlist.map
  | annotationDefault => exact (ElementValue.reports_readWithin s.pool _).map
  | bootstrapMethods =>
    exact (Reports.table fun _ => (BootstrapMethod.reports_read s.pool).within).map
  | methodParameters => exact (Reports.shortTable fun _ => MethodParameter.reports_read s.pool).map
  | module => exact (ModuleDescriptor.reports_read s.pool).map

end ClassFormat
