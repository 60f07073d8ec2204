import Mathlib
import ClassFormat.Attribute.Describe
import ClassFormat.Instruction.Listing
import ClassFormat.Proofs.Attribute.Leaf
import ClassFormat.Proofs.ConstantPool.Describe

/-!
# Attributes can be described

What is described of an attribute, of an instruction or of an exception handler follows some of
its references. If all of them resolve, none of these look-ups fails: the reader demands of each
reference a kind of constant that the description can do with.

* `Annotation.succeeds_describe`: annotations, by recursion on their values;
* `Attribute.succeeds_describe`: attributes of every kind;
* `Instruction.Spelled.succeeds_describe`: instructions with operands as their opcode asks for.
-/

namespace ClassFormat

open ConstantPool

variable {pool : ConstantPool}

/-! ### Annotations -/

mutual

/-- A value is described with what it refers to. -/
theorem ElementValue.succeeds_describe (hpool : pool.Resolved) :
    (value : ElementValue) → (∀ r ∈ value.references, r.Resolves pool) →
    Succeeds (value.describe pool)
  | .constant tag index, h => by
    have hindex : pool.Refers index [tag.kind] := by simpa [ElementValue.references] using h
    cases tag with
    | string | classLiteral => exact hindex.succeeds_text.map
    | _ => exact hpool.succeeds_describe hindex
  | .enum typeIndex nameIndex, h => by
    obtain ⟨htype, hname⟩ : pool.Refers typeIndex [.utf8] ∧ pool.Refers nameIndex [.utf8] := by
      simpa [ElementValue.references] using h
    exact htype.succeeds_text.bind fun _ => hname.succeeds_text.map
  | .nested a, h => by
    rw [ElementValue.describe]
    exact Annotation.succeeds_describe hpool a h
  | .array values, h => by
    rw [ElementValue.describe]
    exact ElementValue.succeeds_describeAll hpool [] values h

/-- Values are described one after another. -/
theorem ElementValue.succeeds_describeAll (hpool : pool.Resolved) (done : List String) :
    (values : List ElementValue) → (∀ r ∈ ElementValue.allReferences values, r.Resolves pool) →
      Succeeds (ElementValue.describeAll pool done values)
  | [], _ => .pure _
  | value :: rest, h => by
    rw [ElementValue.allReferences, List.forall_mem_append] at h
    exact (ElementValue.succeeds_describe hpool value h.1).bind fun s =>
      ElementValue.succeeds_describeAll hpool (s :: done) rest h.2

/-- Pairs are described one after another, with their names. -/
theorem ElementPair.succeeds_describeAll (hpool : pool.Resolved) (done : List String) :
    (pairs : List ElementPair) → (∀ r ∈ ElementPair.allReferences pairs, r.Resolves pool) →
      Succeeds (ElementPair.describeAll pool done pairs)
  | [], _ => .pure _
  | ⟨nameIndex, value⟩ :: rest, h => by
    rw [ElementPair.allReferences, List.cons_append, List.forall_mem_cons, List.forall_mem_append,
      Reference.resolves_required] at h
    obtain ⟨hname, hvalue, hrest⟩ := h
    exact hname.succeeds_text.bind fun name =>
      (ElementValue.succeeds_describe hpool value hvalue).bind fun s =>
      ElementPair.succeeds_describeAll hpool _ rest hrest

/-- An annotation is described with its type and its pairs. -/
theorem Annotation.succeeds_describe (hpool : pool.Resolved) : (a : Annotation) →
    (∀ r ∈ a.references, r.Resolves pool) → Succeeds (a.describe pool)
  | ⟨typeIndex, pairs⟩, h => by
    unfold Annotation.references at h
    rw [List.forall_mem_cons, Reference.resolves_required] at h
    exact h.1.succeeds_text.bind fun _ => (ElementPair.succeeds_describeAll hpool [] pairs h.2).map

end

section

variable (hpool : pool.Resolved)

include hpool

/-- A list of annotations is described one by one. -/
theorem Annotation.succeeds_describeList {annotations : List Annotation}
    (h : ∀ a ∈ annotations, ∀ r ∈ a.references, r.Resolves pool) :
    Succeeds (describeList pool annotations) :=
  (Succeeds.mapM fun a ha => Annotation.succeeds_describe hpool a (h a ha)).map

/-! ### Rows -/

/-- An inner class is described by its name. -/
theorem InnerClass.succeeds_describe {row : InnerClass}
    (h : ∀ r ∈ row.references, r.Resolves pool) : Succeeds (row.describe pool) := by
  have hinner : pool.Refers row.innerIndex [.classref] :=
    Reference.resolves_required.1 (h _ List.mem_cons_self)
  exact (hpool.succeeds_className hinner).map

/-- A bootstrap method is described with its handle and its arguments. -/
theorem BootstrapMethod.succeeds_describe {row : BootstrapMethod}
    (h : ∀ r ∈ row.references, r.Resolves pool) : Succeeds (row.describe pool) := by
  rw [BootstrapMethod.references, List.forall_mem_cons, List.forall_mem_map] at h
  have harguments : Succeeds (row.arguments.mapM pool.describe) :=
    .mapM fun index hindex => hpool.succeeds_describe
      (Reference.resolves_required.1 (h.2 index hindex))
  exact (hpool.succeeds_describe (Reference.resolves_required.1 h.1)).bind fun _ => harguments.map

/-- A module is described by its name and the sizes of its tables. -/
theorem ModuleDescriptor.succeeds_describe {m : ModuleDescriptor}
    (h : ∀ r ∈ m.references, r.Resolves pool) : Succeeds (m.describe pool) :=
  (Succeeds.inside (hpool.exists_moduleName.2 ((references_resolve_iff pool).1 h).1)).map

end

/-- A local variable is described with its name and its type. -/
theorem LocalVariable.succeeds_describe {row : LocalVariable}
    (h : ∀ r ∈ row.references, r.Resolves pool) : Succeeds (row.describe pool) := by
  obtain ⟨hname, hdescriptor⟩ : pool.Refers row.nameIndex [.utf8] ∧
      pool.Refers row.descriptorIndex [.utf8] := by
    simpa [references] using h
  exact hname.succeeds_text.bind fun _ => hdescriptor.succeeds_text.map

/-- A parameter is described by its name, or as one without a name. -/
theorem MethodParameter.succeeds_describe {row : MethodParameter}
    (h : ∀ r ∈ row.references, r.Resolves pool) : Succeeds (row.describe pool) := by
  have hname : row.nameIndex = 0 ∨ pool.Refers row.nameIndex [.utf8] := by
    simpa [references] using h
  rw [describe]
  split
  next => exact .ok _
  next h0 => exact (hname.resolve_left h0).succeeds_text.map

/-- A component of a record is described with its name and its type. -/
theorem RecordComponent.succeeds_describe {component : RecordComponent}
    (h : ∀ r ∈ component.references, r.Resolves pool) : Succeeds (component.describe pool) := by
  obtain ⟨hname, hdescriptor⟩ :
    pool.Refers component.nameIndex [.utf8] ∧ pool.Refers component.descriptorIndex [.utf8] := by
      simpa [references] using h
  exact hdescriptor.succeeds_text.bind fun _ => hname.succeeds_text.map

/-! ### Attributes -/

namespace Attribute

/-- Rows can be described if each of them can be. -/
theorem succeeds_describeRows {α : Type} {describe : α → Except Failure String} {rows : List α}
    (h : ∀ row ∈ rows, Succeeds (describe row)) : Succeeds (describeRows describe rows) :=
  (Succeeds.mapM h).map

variable (hpool : pool.Resolved)

include hpool

/-- Classes can be described if their indices refer to classes. -/
theorem succeeds_describeClasses {indices : List UInt16}
    (h : ∀ i ∈ indices, pool.Refers i [.classref]) : Succeeds (describeClasses pool indices) :=
  succeeds_describeRows fun i hi => (hpool.succeeds_className (h i hi)).map

/-- An attribute the references of which resolve can be described. -/
theorem succeeds_describe {a : Attribute} (h : ∀ r ∈ a.references, r.Resolves pool) :
    Succeeds (a.describe pool) := by
  cases a with
  | code | stackMapTable | synthetic | deprecated | sourceDebugExtension |
      lineNumberTable | other =>
    exact .ok _
  | constantValue index =>
    exact hpool.succeeds_describe (Reference.resolves_required.1 (h _ List.mem_cons_self))
  | signature index | sourceFile index =>
    have hindex : pool.Refers index [.utf8] := by simpa using h
    exact hindex.succeeds_text.map
  | moduleMainClass index | nestHost index =>
    have hindex : pool.Refers index [.classref] := by simpa using h
    exact (hpool.succeeds_className hindex).map
  | exceptions indices | nestMembers indices | permittedSubclasses indices =>
    exact succeeds_describeClasses hpool (by simpa using h)
  | modulePackages indices =>
    have hindices : ∀ i ∈ indices, pool.Refers i [.package] := by simpa using h
    exact succeeds_describeRows fun i hi =>
      Succeeds.map (hpool.exists_packageName.2 (hindices i hi))
  | enclosingMethod classIndex methodIndex =>
    obtain ⟨hclass, hmethod⟩ : pool.Refers classIndex [.classref] ∧
      (methodIndex = 0 ∨ pool.Refers methodIndex [.nameAndType]) := by simpa using h
    refine (hpool.succeeds_className hclass).bind fun name => ?_
    split
    next => exact .pure _
    next h0 => exact (hpool.succeeds_describeNameAndType (hmethod.resolve_left h0)).map
  | innerClasses rows =>
    rw [references, List.forall_mem_flatMap] at h
    exact succeeds_describeRows fun row hrow => InnerClass.succeeds_describe hpool (h row hrow)
  | localVariableTable rows | localVariableTypeTable rows =>
    rw [references, List.forall_mem_flatMap] at h
    exact succeeds_describeRows fun row hrow => LocalVariable.succeeds_describe (h row hrow)
  | annotations visible list =>
    rw [references, List.forall_mem_flatMap] at h
    exact Annotation.succeeds_describeList hpool h
  | parameterAnnotations visible parameters =>
    simp only [references, List.forall_mem_flatMap] at h
    refine succeeds_describeRows fun ⟨list, parameter⟩ hmem => Succeeds.map ?_
    exact Annotation.succeeds_describeList hpool (h list (List.fst_mem_of_mem_zipIdx hmem))
  | typeAnnotations visible list =>
    rw [references, List.forall_mem_flatMap] at h
    refine succeeds_describeRows fun a ha => Succeeds.map ?_
    exact Annotation.succeeds_describe hpool a.annotation (h a ha)
  | annotationDefault value => exact ElementValue.succeeds_describe hpool value h
  | bootstrapMethods methods =>
    rw [references, List.forall_mem_flatMap] at h
    exact succeeds_describeRows fun row hrow => BootstrapMethod.succeeds_describe hpool (h row hrow)
  | methodParameters parameters =>
    rw [references, List.forall_mem_flatMap] at h
    exact succeeds_describeRows fun row hrow => MethodParameter.succeeds_describe (h row hrow)
  | module descriptor => exact ModuleDescriptor.succeeds_describe hpool h
  | record components =>
    rw [references, List.forall_mem_flatMap] at h
    exact succeeds_describeRows fun component hc =>
      RecordComponent.succeeds_describe (h component hc)

end Attribute

/-! ### Code -/

section

variable (hpool : pool.Resolved)

include hpool

/-- Operands that are as the opcode asks for have the reference that is followed. -/
theorem Instruction.Spelled.succeeds_describe {i : Instruction} {position : Nat} {bytes : Bytes}
    (hi : i.Spelled position bytes) (h : ∀ r ∈ i.references, r.Resolves pool) :
    Succeeds (i.describe pool) := by
  have hconstant {index : UInt16} {kinds : List Constant.Kind} (hindex : pool.Refers index kinds) :
      Succeeds (describeConstant pool index) := (hpool.succeeds_describe hindex).map
  have hoperands : Succeeds (i.describeOperands pool) := by
    cases hi with
    | plain hop hy =>
      rw [references, hop] at h
      cases hy with
      | narrowConstant | constant | invokeDynamic =>
        exact hconstant (Reference.resolves_required.1 (h _ (List.mem_singleton.2 rfl)))
      | invokeInterface | multiANewArray =>
        exact (hconstant (Reference.resolves_required.1 (h _ (List.mem_singleton.2 rfl)))).map
      | _ => exact .ok _
    | wide hop hy => cases hy <;> exact .ok _
  exact hoperands.map

/-- An exception handler is described with the class that it catches, or as one that catches all. -/
theorem ExceptionHandler.succeeds_describe {handler : ExceptionHandler}
    (h : ∀ r ∈ handler.references, r.Resolves pool) : Succeeds (handler.describe pool) := by
  have hcaught : handler.catchType = 0 ∨ pool.Refers handler.catchType [.classref] := by
    simpa [references] using h
  rw [describe]
  split
  next => exact .pure _
  next h0 =>
    obtain ⟨name, hname⟩ := hpool.succeeds_className (hcaught.resolve_left h0)
    rw [hname]
    exact .pure _

end

end ClassFormat
