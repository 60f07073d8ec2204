import Mathlib
import ClassFormat.Attribute.Read
import ClassFormat.Attribute.Write
import ClassFormat.Proofs.Annotation.TypeAnnotation
import ClassFormat.Proofs.Attribute.Row
import ClassFormat.Proofs.StackMap

/-!
# Contents of attributes

What an attribute refers to, other than attributes in it do, and that the contents of every
kind that holds no attributes are read back from what is written for them exactly if all that
they refer to is there.

* `Attribute.references`, `Attribute.offsets`, `Attribute.annotatedTypes`: what is referred to;
* `Attribute.AdmittedBy`: all of it is there;
* `Attribute.covers_readLeaf`: the body of an attribute.
-/

namespace ClassFormat

open Reader

/-! ### What an attribute refers to -/

/-- The references of a component of a record class. -/
def RecordComponent.references (component : RecordComponent) : List Reference :=
  [.required component.nameIndex [.utf8], .required component.descriptorIndex [.utf8]]

/-- The references of code, other than those of its attributes. -/
def Code.references (code : Code) : List Reference :=
  code.instructions.flatMap Instruction.references ++
    code.handlers.flatMap ExceptionHandler.references

namespace Attribute

/-- The references of an attribute, other than those of attributes in it. -/
@[simp]
def references : Attribute → List Reference
  | constantValue index => [.required index Constant.Kind.fieldValue]
  | code body => body.references
  | stackMapTable frames => frames.flatMap StackMapFrame.references
  | exceptions indices | nestMembers indices | permittedSubclasses indices =>
    indices.map fun index => .required index [.classref]
  | innerClasses rows => rows.flatMap InnerClass.references
  | enclosingMethod classIndex methodIndex =>
    [.required classIndex [.classref], .orZero methodIndex .nameAndType]
  | signature index | sourceFile index => [.required index [.utf8]]
  | localVariableTable rows | localVariableTypeTable rows => rows.flatMap LocalVariable.references
  | annotations _ list => list.flatMap Annotation.references
  | parameterAnnotations _ parameters =>
    parameters.flatMap fun list => list.flatMap Annotation.references
  | typeAnnotations _ list => list.flatMap fun a => a.annotation.references
  | annotationDefault value => value.references
  | bootstrapMethods methods => methods.flatMap BootstrapMethod.references
  | methodParameters parameters => parameters.flatMap MethodParameter.references
  | module descriptor => descriptor.references
  | modulePackages indices => indices.map fun index => .required index [.package]
  | moduleMainClass index | nestHost index => [.required index [.classref]]
  | record components => components.flatMap RecordComponent.references
  | synthetic | deprecated | sourceDebugExtension _ | lineNumberTable _ | other _ => []

/-- The offsets of an attribute into the code around it. -/
@[simp]
def offsets : Attribute → List CodeOffset
  | stackMapTable frames => StackMapFrame.tableOffsets frames
  | lineNumberTable rows => rows.flatMap LineNumber.offsets
  | localVariableTable rows | localVariableTypeTable rows => rows.flatMap LocalVariable.offsets
  | typeAnnotations _ list => list.flatMap fun a => a.info.offsets
  | _ => []

/-- The type annotations of an attribute. -/
@[simp]
def annotatedTypes : Attribute → List TypeAnnotation
  | typeAnnotations _ list => list
  | _ => []

/-- The values of annotations are nested at most `levels` deep. -/
@[simp]
def NestsWithin (levels : Nat) : Attribute → Prop
  | annotations _ list => ∀ a ∈ list, a.height ≤ levels
  | parameterAnnotations _ parameters => ∀ list ∈ parameters, ∀ a ∈ list, a.height ≤ levels
  | typeAnnotations _ list => ∀ a ∈ list, a.annotation.height ≤ levels
  | annotationDefault value => value.height ≤ levels
  | _ => True

/-- What the attribute refers to is there, and its values are nested within the limit. -/
@[mk_iff]
structure AdmittedBy (s : Surroundings) (a : Attribute) : Prop where
  references : ∀ r ∈ a.references, r.Resolves s.pool
  offsets : ∀ o ∈ a.offsets, s.Admits o
  nests : a.NestsWithin ElementValue.maxDepth
  annotatedTypes : ∀ t ∈ a.annotatedTypes, s.location ∈ t.target.locations ∧ t.info.Bounded s

/-! ### Contents without attributes -/

variable {s : Surroundings} {kind : Kind} {α : Type}

/-- A reader of attributes reads the bodies of the kind. -/
abbrev CoversBody (s : Surroundings) (kind : Kind) (r : Reader Attribute) : Prop :=
  r.Covers fun a bytes => a.kind? = some kind ∧ a.write s.pool = .ok bytes ∧ a.AdmittedBy s

/-- Only an attribute that is not decoded has no kind. -/
theorem kind?_eq_none {a : Attribute} : a.kind? = none ↔ ∃ bytes, a = other bytes := by
  constructor
  · intro h
    cases a with
    | annotations visible | parameterAnnotations visible | typeAnnotations visible =>
      cases visible <;> cases h
    | other bytes => exact ⟨bytes, rfl⟩
    | _ => cases h
  · rintro ⟨bytes, rfl⟩
    rfl

/-- The attributes of a kind are those that the kind is named for. Whether annotations are visible
    is a matter of the kind, too. -/
theorem kind?_eq_some {a : Attribute} : a.kind? = some kind ↔
    match kind with
    | .constantValue => ∃ index, a = constantValue index
    | .code => ∃ body, a = code body
    | .stackMapTable => ∃ frames, a = stackMapTable frames
    | .exceptions => ∃ classes, a = exceptions classes
    | .innerClasses => ∃ rows, a = innerClasses rows
    | .enclosingMethod => ∃ classIndex methodIndex, a = enclosingMethod classIndex methodIndex
    | .synthetic => a = synthetic
    | .signature => ∃ index, a = signature index
    | .sourceFile => ∃ index, a = sourceFile index
    | .sourceDebugExtension => ∃ bytes, a = sourceDebugExtension bytes
    | .lineNumberTable => ∃ rows, a = lineNumberTable rows
    | .localVariableTable => ∃ rows, a = localVariableTable rows
    | .localVariableTypeTable => ∃ rows, a = localVariableTypeTable rows
    | .deprecated => a = deprecated
    | .runtimeVisibleAnnotations => ∃ list, a = annotations true list
    | .runtimeInvisibleAnnotations => ∃ list, a = annotations false list
    | .runtimeVisibleParameterAnnotations => ∃ parameters, a = parameterAnnotations true parameters
    | .runtimeInvisibleParameterAnnotations =>
      ∃ parameters, a = parameterAnnotations false parameters
    | .runtimeVisibleTypeAnnotations => ∃ list, a = typeAnnotations true list
    | .runtimeInvisibleTypeAnnotations => ∃ list, a = typeAnnotations false list
    | .annotationDefault => ∃ value, a = annotationDefault value
    | .bootstrapMethods => ∃ methods, a = bootstrapMethods methods
    | .methodParameters => ∃ parameters, a = methodParameters parameters
    | .module => ∃ descriptor, a = module descriptor
    | .modulePackages => ∃ packages, a = modulePackages packages
    | .moduleMainClass => ∃ index, a = moduleMainClass index
    | .nestHost => ∃ index, a = nestHost index
    | .nestMembers => ∃ classes, a = nestMembers classes
    | .record => ∃ components, a = record components
    | .permittedSubclasses => ∃ classes, a = permittedSubclasses classes := by
  constructor
  · intro h
    cases a with
    | annotations visible | parameterAnnotations visible | typeAnnotations visible =>
      cases visible <;> cases h <;> exact ⟨_, rfl⟩
    | synthetic | deprecated => cases h; rfl
    | enclosingMethod classIndex methodIndex => cases h; exact ⟨_, _, rfl⟩
    | other bytes => cases h
    | _ => cases h; exact ⟨_, rfl⟩
  · intro h
    cases kind with
    | synthetic | deprecated => subst h; rfl
    | enclosingMethod => obtain ⟨_, _, rfl⟩ := h; rfl
    | _ => obtain ⟨_, rfl⟩ := h; rfl

/-- Contents that are read and written as a value of another type. -/
theorem covers_make {pool : ConstantPool} {r : Reader α} {write : α → Written} {P : α → Prop}
    {Q : Attribute → Prop} {make : α → Attribute}
    (hr : r.Covers fun x bytes => write x = .ok bytes ∧ P x)
    (hmake : ∀ a, a.kind? = some kind ↔ ∃ x, a = make x)
    (hwrite : ∀ x, (make x).write pool = write x) (hadmitted : ∀ x, Q (make x) ↔ P x) :
    Reader.Covers (r >>= fun x => pure (make x)) fun a bytes =>
      a.kind? = some kind ∧ a.write pool = .ok bytes ∧ Q a where
  sound {c a c'} h hc := by
    obtain ⟨x, c₁, hx, ha⟩ := Reader.bind_eq_ok.1 h
    cases ha
    obtain ⟨hbytes, hP⟩ := hr.sound hx hc
    exact ⟨(hmake _).2 ⟨x, rfl⟩, (hwrite x).trans hbytes, (hadmitted x).2 hP⟩
  complete {c a} h := by
    obtain ⟨hkind, hbytes, ha⟩ := h
    obtain ⟨x, rfl⟩ := (hmake a).1 hkind
    obtain ⟨c', hx, hc⟩ := hr.complete ⟨(hwrite x).symm.trans hbytes, (hadmitted x).1 ha⟩
    exact ⟨c', Reader.bind_eq_ok.2 ⟨x, c', hx, rfl⟩, hc⟩

variable (s)

/-- Annotations are admitted if each of them is. -/
theorem admits_annotations {visible : Bool} {list : List Annotation} :
    (annotations visible list).AdmittedBy s ↔
      ∀ a ∈ list, a.Admissible s.pool ElementValue.maxDepth := by
  simp [admittedBy_iff, List.forall_mem_flatMap, Annotation.admissible_iff, forall_and,
    -List.mem_flatMap]

/-- The annotations of parameters are admitted if each of them is. -/
theorem admits_parameterAnnotations {visible : Bool} {parameters : List (List Annotation)} :
    (parameterAnnotations visible parameters).AdmittedBy s ↔
      ∀ list ∈ parameters, ∀ a ∈ list, a.Admissible s.pool ElementValue.maxDepth := by
  simp [admittedBy_iff, List.forall_mem_flatMap, Annotation.admissible_iff, forall_and,
    -List.mem_flatMap]

/-- Type annotations are admitted if each of them is. -/
theorem admits_typeAnnotations {visible : Bool} {list : List TypeAnnotation} :
    (typeAnnotations visible list).AdmittedBy s ↔ ∀ a ∈ list, a.AdmittedBy s := by
  simp [admittedBy_iff, List.forall_mem_flatMap, TypeAnnotation.admittedBy_iff,
    Annotation.admissible_iff, forall_and, -List.mem_flatMap]
  tauto

/-- The body of an attribute that holds no others is read as it is written, kind by kind, if what it
    refers to is there. -/
theorem covers_readLeaf (hs : s.location = .code → ∃ map, s.code? = some map) (hcode : kind ≠ .code)
    (hrecord : kind ≠ .record) : CoversBody s kind (readLeaf s kind) := by
  cases kind with
  | code => exact absurd rfl hcode
  | record => exact absurd rfl hrecord
  | constantValue =>
    exact covers_make (s.pool.inverts_index Constant.Kind.fieldValue).covers
      (fun _ => kind?_eq_some) (fun _ => by rw [write]) fun index => by simp [admittedBy_iff]
  | signature | sourceFile =>
    exact covers_make (s.pool.inverts_index [.utf8]).covers (fun _ => kind?_eq_some)
      (fun _ => by rw [write]) fun index => by simp [admittedBy_iff]
  | moduleMainClass | nestHost =>
    exact covers_make (s.pool.inverts_index [.classref]).covers (fun _ => kind?_eq_some)
      (fun _ => by rw [write]) fun index => by simp [admittedBy_iff]
  | exceptions | nestMembers | permittedSubclasses =>
    exact covers_make (s.pool.inverts_indices .classref).covers (fun _ => kind?_eq_some)
      (fun _ => by rw [write]) fun classes => by simp [admittedBy_iff]
  | modulePackages =>
    exact covers_make (s.pool.inverts_indices .package).covers (fun _ => kind?_eq_some)
      (fun _ => by rw [write]) fun packages => by simp [admittedBy_iff]
  | enclosingMethod =>
    -- The checks come after both indices, so neither index is read by itself.
    refine Reads.covers (Reads.congr (reads_u2.bind fun classIndex =>
      reads_u2.bind fun methodIndex => Reads.guard (s.pool.require classIndex [.classref]) fun _ =>
        Reads.guard (s.pool.requireOptional methodIndex .nameAndType) fun _ =>
        Reads.pure _) fun a bytes => ?_)
    simp only [kind?_eq_some]
    constructor
    · rintro ⟨classIndex, _, rfl, _, ⟨methodIndex, _, rfl, _, ⟨hclass, hmethod, rfl, rfl⟩, rfl⟩,
        rfl⟩
      simp only [ConstantPool.exists_require_eq_ok, ConstantPool.exists_requireOptional_eq_ok]
        at hclass hmethod
      exact ⟨⟨_, _, rfl⟩, by simp [write], by simp [admittedBy_iff, hclass, hmethod]⟩
    · rintro ⟨⟨classIndex, methodIndex, rfl⟩, hwrite, ha⟩
      obtain ⟨hclass, hmethod⟩ : s.pool.Refers classIndex [.classref] ∧
        (methodIndex = 0 ∨ s.pool.Refers methodIndex [.nameAndType]) := by simpa using ha.references
      simp only [write, Except.ok.injEq] at hwrite
      subst hwrite
      exact ⟨classIndex, _, rfl, _, ⟨methodIndex, _, rfl, [],
        ⟨by simpa using hclass, by simpa using hmethod, rfl, rfl⟩, by simp⟩, rfl⟩
  | synthetic | deprecated =>
    refine Reads.covers ((Reads.pure _).congr fun a bytes => ?_)
    simp only [kind?_eq_some]
    constructor
    · rintro ⟨rfl, rfl⟩
      exact ⟨rfl, by rw [write], by simp [admittedBy_iff]⟩
    · rintro ⟨rfl, hwrite, -⟩
      exact ⟨rfl, by simpa [write, eq_comm] using hwrite⟩
  | sourceDebugExtension =>
    have hremaining : remaining.Covers fun b bytes => (.ok b : Written) = .ok bytes ∧ True :=
      covers_remaining.congr fun b bytes => by simp [eq_comm]
    exact covers_make hremaining (fun _ => kind?_eq_some) (fun _ => by rw [write])
      fun b => by simp [admittedBy_iff]
  | stackMapTable =>
    exact covers_make (StackMapFrame.inverts_readTable s).covers (fun _ => kind?_eq_some)
      (fun _ => by rw [write]) fun frames => by simp [admittedBy_iff, List.forall_mem_flatMap,
      -List.mem_flatMap]
  | innerClasses =>
    exact covers_make (Inverts.table fun _ => InnerClass.inverts_read s.pool).covers
      (fun _ => kind?_eq_some) (fun _ => by rw [write]) fun rows => by
      simp [admittedBy_iff, List.forall_mem_flatMap, -List.mem_flatMap]
  | lineNumberTable =>
    exact covers_make (Inverts.table fun _ => LineNumber.inverts_read s).covers
      (fun _ => kind?_eq_some) (fun _ => by rw [write]) fun rows => by
      simp [admittedBy_iff, List.forall_mem_flatMap, -List.mem_flatMap]
  | localVariableTable | localVariableTypeTable =>
    exact covers_make (Inverts.table fun _ => LocalVariable.inverts_read s).covers
      (fun _ => kind?_eq_some) (fun _ => by rw [write]) fun rows => by
        simp [admittedBy_iff, List.forall_mem_flatMap, forall_and, -List.mem_flatMap]
  | bootstrapMethods =>
    exact covers_make (BootstrapMethod.inverts_readTable s.pool).covers (fun _ => kind?_eq_some)
      (fun _ => by rw [write]) fun methods => by simp [admittedBy_iff, List.forall_mem_flatMap,
      -List.mem_flatMap]
  | methodParameters =>
    exact covers_make (Inverts.shortTable fun _ => MethodParameter.inverts_read s.pool).covers
      (fun _ => kind?_eq_some) (fun _ => by rw [write]) fun rows => by
        simp [admittedBy_iff, List.forall_mem_flatMap, -List.mem_flatMap]
  | runtimeVisibleAnnotations | runtimeInvisibleAnnotations =>
    have h := Annotation.inverts_readList s.pool
    exact covers_make h.covers (fun _ => kind?_eq_some) (fun _ => by rw [write])
      fun list => admits_annotations s
  | runtimeVisibleParameterAnnotations | runtimeInvisibleParameterAnnotations =>
    have h := Annotation.inverts_readParameters s.pool
    exact covers_make h.covers (fun _ => kind?_eq_some) (fun _ => by rw [write])
      fun list => admits_parameterAnnotations s
  | runtimeVisibleTypeAnnotations | runtimeInvisibleTypeAnnotations =>
    have h := TypeAnnotation.inverts_readList s hs
    exact covers_make h.covers (fun _ => kind?_eq_some) (fun _ => by rw [write])
      fun list => admits_typeAnnotations s
  | annotationDefault =>
    exact covers_make (ElementValue.inverts_read s.pool).covers (fun _ => kind?_eq_some)
      (fun _ => by rw [write]) fun value => by simp [admittedBy_iff, ElementValue.admissible_iff]
  | module =>
    exact covers_make (ModuleDescriptor.inverts_read s.pool).covers (fun _ => kind?_eq_some)
      (fun _ => by rw [write]) fun descriptor => by simp [admittedBy_iff]

end Attribute

end ClassFormat
