import Mathlib
import ClassFormat.Proofs.Attribute.Site
import ClassFormat.Proofs.Truncation

/-!
# Contents of attributes that are cut

The contents of an attribute tell where they end, so they are refused if the body that they are in
is longer or shorter than they are. The only exception is a debug extension, which is whatever is in
its body.

* `Annotation.definite_read`, `TypeAnnotation.definite_read`, `StackMapFrame.definite_readTable`,
  `ModuleDescriptor.definite_read`, `Code.definite_read` and so on: what attributes consist of;
* `NamedAttribute.starves_read`: an attribute, the body of which is taken as a whole;
* `Attribute.definite_read`: the contents of an attribute.
-/

namespace ClassFormat

open Reader

variable (s : Surroundings) (pool : ConstantPool)

/-! ### References -/

namespace ConstantPool

/-- An index is checked after it is read, so its bytes do not depend on what it refers to. -/
theorem definite_index (kinds : List Constant.Kind) : (pool.readIndex kinds).Definite :=
  definite_u2.bind fun _ => .bind (.check _) fun _ => .pure _

theorem definite_optionalIndex (kind : Constant.Kind) : (pool.readOptionalIndex kind).Definite :=
  definite_u2.bind fun _ => .bind (.check _) fun _ => .pure _

theorem definite_indices (kind : Constant.Kind) : (pool.readIndices kind).Definite :=
  .table fun _ => pool.definite_index [kind]

end ConstantPool

/-! ### Rows and modules -/

theorem LineNumber.definite_read : (read s).Definite :=
  definite_u2.bind fun _ => definite_u2.bind fun _ => .bind (.check _) fun _ => .pure _

/-- A local variable takes ten bytes. -/
theorem LocalVariable.definite_read : (read s).Definite :=
  definite_u2.bind fun _ => definite_u2.bind fun _ => definite_u2.bind fun _ =>
    definite_u2.bind fun _ => definite_u2.bind fun _ => .bind (.check _) fun _ =>
    .bind (.check _) fun _ => .bind (.check _) fun _ => .pure _

/-- An inner class takes eight bytes. -/
theorem InnerClass.definite_read : (read pool).Definite :=
  definite_u2.bind fun _ => definite_u2.bind fun _ => definite_u2.bind fun _ =>
    definite_u2.bind fun _ => .bind (.check _) fun _ => .bind (.check _) fun _ =>
    .bind (.check _) fun _ => .pure _

theorem BootstrapMethod.definite_read : (read pool).Definite :=
  (pool.definite_index _).bind fun _ => .bind (.table fun _ => pool.definite_index _) fun _ =>
    .pure _

theorem MethodParameter.definite_read : (read pool).Definite :=
  definite_u2.bind fun _ => definite_u2.bind fun _ => .bind (.check _) fun _ => .pure _

namespace ModuleDescriptor

theorem Requires.definite_read : (read pool).Definite :=
  (pool.definite_index _).bind fun _ => definite_u2.bind fun _ =>
    (pool.definite_optionalIndex _).bind fun _ => .pure _

theorem Package.definite_read : (read pool).Definite :=
  (pool.definite_index _).bind fun _ => definite_u2.bind fun _ =>
    (pool.definite_indices _).bind fun _ => .pure _

theorem Provides.definite_read : (read pool).Definite :=
  (pool.definite_index _).bind fun _ => (pool.definite_indices _).bind fun _ => .pure _

/-- A module ends where the counts of its tables say. -/
theorem definite_read : (read pool).Definite :=
  (pool.definite_index _).bind fun _ => definite_u2.bind fun _ =>
    (pool.definite_optionalIndex _).bind fun _ =>
    .bind (.within (.table fun _ => Requires.definite_read pool)) fun _ =>
      .bind (.within (.table fun _ => Package.definite_read pool)) fun _ =>
        .bind (.within (.table fun _ => Package.definite_read pool)) fun _ =>
          .bind (.within (pool.definite_indices _)) fun _ =>
            .bind (.within (.table fun _ => Provides.definite_read pool)) fun _ => .pure _

end ModuleDescriptor

/-! ### Annotations -/

/-- An annotation ends with its last pair, if values end where they do by themselves. -/
theorem Annotation.definite_readWith {readValue : Reader ElementValue} (h : readValue.Definite) :
    (readWith pool readValue).Definite :=
  definite_u2.bind fun _ => .bind (.check _) fun _ => .bind (.within (.table fun _ =>
    definite_u2.bind fun _ => .bind (.check _) fun _ => h.bind fun _ => .pure _)) fun _ => .pure _

/-- A value ends where its code and the counts in it say. -/
theorem ElementValue.definite_readWithin (levels : Nat) : (readWithin pool levels).Definite := by
  induction levels with
  | zero => exact .raise _
  | succ levels ih =>
    have hconstant (code : UInt8) (offset : Nat) (kind : Constant.Kind) :
        (readConstant pool code offset kind).Definite :=
        definite_u2.bind fun _ => .bind (.check _) fun _ => .pure _
    refine .offset fun offset => definite_u1.bind fun code => ?_
    split
    · exact (hconstant ..).bind fun _ => .pure _
    · split
      · exact (hconstant ..).bind fun _ => (hconstant ..).bind fun _ => .pure _
      · split
        · have hnested := Annotation.definite_readWith pool ih
          exact hnested.bind fun _ => .pure _
        · split
          · exact .bind (.table fun _ => ih) fun _ => .pure _
          · exact .raise _

theorem Annotation.definite_read : (read pool).Definite :=
  definite_readWith pool (ElementValue.definite_readWithin pool _)

theorem Annotation.definite_readList : (readList pool).Definite :=
  .table fun _ => (definite_read pool).within

/-- A step of a type path takes two bytes. -/
theorem TypePath.Step.definite_read : read.Definite := by
  have hplain (argument : UInt8) (step : Step) : Reader.Definite (do
      if argument ≠ 0 then (Fault.malformed (.pathArgument step argument)).raise
      return step) := .refuse (b := ()) (.pure _)
  refine definite_u1.bind fun kind => definite_u1.bind fun argument => ?_
  dsimp only
  split
  · exact hplain argument array
  · exact hplain argument nested
  · exact hplain argument wildcard
  · exact .pure _
  · exact .raise _

theorem LocalVarRange.definite_read (code : CodeMap) : (read code).Definite :=
  definite_u2.bind fun _ => definite_u2.bind fun _ => definite_u2.bind fun _ =>
    .bind (.check _) fun _ => .pure _

/-- What follows a target type ends where its form says. -/
theorem TargetInfo.definite_read (form : TargetForm) : (read s form).Definite := by
  cases form with
  | empty => exact .pure _
  | typeParameter | formalParameter => exact definite_u1.bind fun _ => .pure _
  | supertype => exact definite_u2.bind fun _ => .refuse (b := ()) (.pure _)
  | typeParameterBound => exact definite_u1.bind fun _ => definite_u1.bind fun _ => .pure _
  | throws => exact definite_u2.bind fun _ => .pure _
  | localVar =>
    exact .bind (.check _) fun code => .bind (.table fun _ => LocalVarRange.definite_read code)
      fun _ => .pure _
  | handler => exact definite_u2.bind fun _ => .bind (.check _) fun _ => .refuse (b := ()) (.pure _)
  | offset =>
    exact definite_u2.bind fun _ => .bind (.check _) fun _ => .bind (.check _) fun _ => .pure _
  | typeArgument =>
    exact definite_u2.bind fun _ => definite_u1.bind fun _ => .bind (.check _) fun _ =>
      .bind (.check _) fun _ => .pure _

/-- A type annotation ends where its target type and the counts in it say. -/
theorem TypeAnnotation.definite_read : (read s).Definite := by
  have hannotation := Annotation.definite_read s.pool
  refine .offset fun offset => definite_u1.bind fun value => ?_
  split
  · exact .raise _
  · exact .refuse (b := ()) <| .bind (TargetInfo.definite_read s _).within fun _ =>
      .bind (.shortTable fun _ => TypePath.Step.definite_read) fun _ =>
        hannotation.bind fun _ => .pure _

theorem TypeAnnotation.definite_readList : (readList s).Definite :=
  .table fun _ => (definite_read s).within

/-! ### Stack maps -/

/-- A verification type ends where its tag says. -/
theorem VerificationType.definite_read : (read s).Definite := by
  refine definite_u1.bind fun tag => ?_
  split
  case h_8 => exact (s.pool.definite_index _).bind fun _ => .pure _
  case h_9 => exact definite_u2.bind fun _ => .bind (.check _) fun _ => .pure _
  case h_10 => exact .raise _
  all_goals exact .pure _

namespace StackMapFrame

/-- A frame ends where its type and the counts in it say. -/
theorem definite_read : (read s).Definite := by
  have htype := VerificationType.definite_read s
  refine definite_u1.bind fun type => ?_
  dsimp only
  -- The cases are the ranges of the type of a frame.
  split
  · exact .pure _
  · split
    · exact htype.bind fun _ => .pure _
    · split
      · exact .raise _
      · split
        · exact definite_u2.bind fun _ => htype.bind fun _ => .pure _
        · split
          · exact definite_u2.bind fun _ => .pure _
          · split
            · exact definite_u2.bind fun _ => .pure _
            · split
              · exact definite_u2.bind fun _ => .bind (.times (fun _ => htype) _) fun _ => .pure _
              · exact definite_u2.bind fun _ => .bind (.table fun _ => htype) fun _ =>
                  .bind (.table fun _ => htype) fun _ => .pure _

/-- Frames end with the last one of them. -/
theorem definite_readFrom (n index : Nat) (previous : Option Nat) (done : List StackMapFrame) :
    (readFrom s index previous done n).Definite := by
  induction n generalizing index previous done with
  | zero => exact .pure _
  | succ n ih => exact (definite_read s).within.bind fun frame => .bind (.check _) fun _ => ih _ _ _

theorem definite_readTable : (readTable s).Definite :=
  definite_u2.bind fun _ => definite_readFrom s _ 0 none []

end StackMapFrame

/-! ### Code -/

/-- The code array is taken as a whole, so how it is decoded does not matter. -/
theorem Instruction.starves_decode (length : Nat) : (decode pool length).Starves :=
  .offset fun _ => .bind_still (.offset fun inner => (starves_bytes length).bind_still fun code =>
    .confined inner code _) fun _ => .pure _

/-- The table of handlers ends where its count says. -/
theorem ExceptionHandler.definite_readTable (code : CodeMap) : (readTable pool code).Definite :=
  .table fun _ => .within <| definite_u2.bind fun _ => definite_u2.bind fun _ =>
    definite_u2.bind fun _ => (pool.definite_optionalIndex _).bind fun _ =>
    .bind (.check _) fun _ => .pure _

/-- A body is decoded from bytes that have been taken before, so nothing more is taken. -/
theorem NamedAttribute.still_readBody (kind : Attribute.Kind) (declared : UInt32) (start : Nat)
    (body : Bytes) (decode : Reader Attribute) :
    (readBody kind declared start body decode).Still := by
  refine .mapFailure <| (Still.confined start body decode).bind fun (content, left) => ?_
  dsimp only
  split
  · exact (Still.raise _).bind fun _ => .pure _
  · exact .pure _

/-- The body of an attribute is taken as a whole, so how it is decoded does not matter. -/
theorem NamedAttribute.starves_read (s : Surroundings)
    (decode : Attribute.Kind → Reader Attribute) : (read s decode).Starves := by
  refine .offset fun offset => .bind reads_u2 starves_u2 fun nameIndex =>
    .bind (Reads.check _) (Still.check _).starves fun name => .bind reads_u4 starves_u4
      fun length => .offset fun start => (starves_bytes length.toNat).within.bind_still
      fun body => ?_
  split
  · exact (Still.log _).bind fun _ => .pure _
  · split
    · exact (Still.log _).bind fun _ => .bind (.mapFailure (still_readBody ..)) fun content =>
        .pure _
    · exact (Still.log _).bind fun _ => .pure _

namespace Attribute

/-- A list of attributes that is cut short is truncated, and not too short: bodies are taken as a
    whole. -/
theorem starves_readList (pool : ConstantPool) (options : ReadOptions) (site : Site)
    (houter : site.location ≠ .code) : (readList (site.surroundings pool options)).Starves :=
  .table (fun _ => inverts_readNamed pool options site houter) fun _ =>
    NamedAttribute.starves_read _ _

/-- A list of attributes in another one ends where its count and their lengths say. -/
theorem definite_readInnerList (s : Surroundings)
    (hinner : s.location = .code ∨ s.location = .recordComponent)
    (hcode : s.location = .code → ∃ map, s.code? = some map) : (readInnerList s).Definite :=
  .table fun _ => .of_reads (inverts_readInner s hinner hcode) (NamedAttribute.starves_read _ _)

end Attribute

/-- Code ends where its length and the counts in it say. -/
theorem Code.definite_read : (read s).Definite :=
  definite_u2.bind fun _ => definite_u2.bind fun _ => definite_u4.bind fun length =>
    .bind (.check _) fun _ => .bind (.of_reads (Instruction.inverts_decode s.pool length.toNat_lt)
    (Instruction.starves_decode _ _)) fun _ =>
      .bind (.check _) fun _ => .bind (ExceptionHandler.definite_readTable _ _) fun _ =>
        .bind (Attribute.definite_readInnerList (s.inCode _) (Or.inl rfl) fun _ => ⟨_, rfl⟩)
        fun _ => .pure _

/-- A component ends where the count of its attributes and their lengths say. -/
theorem RecordComponent.definite_read : (read s).Definite :=
  definite_u2.bind fun _ => definite_u2.bind fun _ => .bind (.check _) fun _ =>
    .bind (.check _) fun _ => .bind (Attribute.definite_readInnerList (s.moveTo .recordComponent)
    (Or.inr rfl) nofun).within fun _ => .pure _

/-! ### Attributes -/

namespace Attribute

/-- The contents of an attribute other than a debug extension tell where they end. -/
theorem definite_read {kind : Kind} (hdebug : kind ≠ .sourceDebugExtension) :
    (read s kind).Definite := by
  cases kind with
  | code => exact (Code.definite_read s).bind fun _ => .pure _
  | record => exact .bind (.table fun _ => RecordComponent.definite_read s) fun _ => .pure _
  | constantValue | signature | sourceFile | moduleMainClass | nestHost =>
    exact (s.pool.definite_index _).bind fun _ => .pure _
  | exceptions | modulePackages | nestMembers | permittedSubclasses =>
    exact (s.pool.definite_indices _).bind fun _ => .pure _
  | enclosingMethod =>
    exact definite_u2.bind fun _ => definite_u2.bind fun _ => .bind (.check _) fun _ =>
      .bind (.check _) fun _ => .pure _
  | synthetic | deprecated => exact .pure _
  | sourceDebugExtension => exact absurd rfl hdebug
  | stackMapTable => exact (StackMapFrame.definite_readTable s).bind fun _ => .pure _
  | innerClasses => exact .bind (.table fun _ => InnerClass.definite_read s.pool) fun _ => .pure _
  | lineNumberTable => exact .bind (.table fun _ => LineNumber.definite_read s) fun _ => .pure _
  | localVariableTable | localVariableTypeTable =>
    exact .bind (.table fun _ => LocalVariable.definite_read s) fun _ => .pure _
  | runtimeVisibleAnnotations | runtimeInvisibleAnnotations =>
    have hlist := Annotation.definite_readList s.pool
    exact hlist.bind fun _ => .pure _
  | runtimeVisibleParameterAnnotations | runtimeInvisibleParameterAnnotations =>
    have hlist := Annotation.definite_readList s.pool
    exact .bind (.shortTable fun _ => hlist.within) fun _ => .pure _
  | runtimeVisibleTypeAnnotations | runtimeInvisibleTypeAnnotations =>
    have hlist := TypeAnnotation.definite_readList s
    exact hlist.bind fun _ => .pure _
  | annotationDefault => exact (ElementValue.definite_readWithin s.pool _).bind fun _ => .pure _
  | bootstrapMethods =>
    exact .bind (.table fun _ => (BootstrapMethod.definite_read s.pool).within) fun _ => .pure _
  | methodParameters =>
    exact .bind (.shortTable fun _ => MethodParameter.definite_read s.pool) fun _ => .pure _
  | module => exact (ModuleDescriptor.definite_read s.pool).bind fun _ => .pure _

end Attribute

end ClassFormat
