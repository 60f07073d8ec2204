import Mathlib
import ClassFormat.Attribute.ModuleDescriptor
import ClassFormat.Attribute.Row
import ClassFormat.Proofs.Code.Offset

/-!
# Rows of tables, read back

For each sort of rows, its references and its code offsets, and that a row is read back from
what is written for it exactly if these are right.

* `LineNumber.inverts_read`, `LocalVariable.inverts_read`, `InnerClass.inverts_read`,
  `BootstrapMethod.inverts_readTable`, `MethodParameter.inverts_read`: the rows of attributes;
* `ModuleDescriptor.inverts_read`: the description of a module, which has tables of its own.
-/

namespace ClassFormat

open Reader

variable (s : Surroundings) (pool : ConstantPool)

/-! ### Rows with code offsets -/

namespace LineNumber

/-- The code offsets of a row. -/
def offsets (row : LineNumber) : List CodeOffset := [.start row.startPc.toNat]

/-- A line is read as it is written, if it begins at the start of an instruction. -/
theorem inverts_read : (read s).Inverts (fun row => .ok row.write) fun row =>
    ∀ o ∈ row.offsets, s.Admits o := by
  refine Reads.congr (reads_u2.bind fun startPc => reads_u2.bind fun line =>
    Reads.guard (s.ifCode fun code => code.requireStart .lineNumber startPc.toNat) fun _ =>
      Reads.pure _) fun ⟨startPc, line⟩ bytes => ?_
  simp [write, offsets, eq_comm (b := bytes)]
  tauto

end LineNumber

namespace LocalVariable

/-- The references of a row. -/
def references (row : LocalVariable) : List Reference :=
  [.required row.nameIndex [.utf8], .required row.descriptorIndex [.utf8]]

/-- The code offsets of a row. -/
def offsets (row : LocalVariable) : List CodeOffset := CodeOffset.range row.startPc row.length

/-- A local variable is read as it is written, if its names are there and its range lies in the
    code. -/
theorem inverts_read : (read s).Inverts (fun row => .ok row.write) fun row =>
    (∀ r ∈ row.references, r.Resolves s.pool) ∧ ∀ o ∈ row.offsets, s.Admits o := by
  refine Reads.congr (reads_u2.bind fun startPc => reads_u2.bind fun length =>
    reads_u2.bind fun nameIndex => reads_u2.bind fun descriptorIndex => reads_u2.bind fun index =>
      Reads.guard (s.pool.require nameIndex [.utf8]) fun _ =>
        Reads.guard (s.pool.require descriptorIndex [.utf8]) fun _ =>
          Reads.guard (s.ifCode fun code => code.requireRange .localVariable startPc length)
            fun _ => Reads.pure _) fun ⟨startPc, length, nameIndex, descriptorIndex,
            index⟩ bytes => ?_
  simp [write, references, offsets, eq_comm (b := bytes)]
  tauto

end LocalVariable

/-! ### Rows of a class -/

namespace InnerClass

/-- The references of a row. -/
def references (row : InnerClass) : List Reference :=
  [.required row.innerIndex [.classref], .orZero row.outerIndex .classref,
    .orZero row.nameIndex .utf8]

/-- An inner class is read as it is written, if the classes and the name are there. -/
theorem inverts_read : (read pool).Inverts (fun row => .ok row.write) fun row =>
    ∀ r ∈ row.references, r.Resolves pool := by
  refine Reads.congr (reads_u2.bind fun innerIndex => reads_u2.bind fun outerIndex =>
    reads_u2.bind fun nameIndex => reads_u2.bind fun accessFlags =>
      Reads.guard (pool.require innerIndex [.classref]) fun _ =>
        Reads.guard (pool.requireOptional outerIndex .classref) fun _ =>
          Reads.guard (pool.requireOptional nameIndex .utf8) fun _ => Reads.pure _)
            fun ⟨innerIndex, outerIndex, nameIndex, accessFlags⟩ bytes => ?_
  simp [write, references, eq_comm (b := bytes)]
  tauto

end InnerClass

namespace BootstrapMethod

/-- The references of a row. -/
def references (row : BootstrapMethod) : List Reference :=
  .required row.methodIndex [.methodHandle] ::
    row.arguments.map fun index => .required index Constant.Kind.bootstrapArgument

/-- Bootstrap methods are read as they are written, each with a note about which one it is. -/
theorem inverts_readTable : (readTable pool).Inverts (Writer.table write) fun rows =>
    ∀ row ∈ rows, ∀ r ∈ row.references, r.Resolves pool := by
  refine Inverts.table fun index => Reads.within ?_
  refine Reads.congr ((pool.reads_index [.methodHandle]).bind fun methodIndex =>
    (pool.inverts_indexTable Constant.Kind.bootstrapArgument).bind fun arguments => Reads.pure _)
      fun ⟨methodIndex, arguments⟩ bytes => ?_
  simp [write, references, eq_comm (b := bytes)]
  tauto

end BootstrapMethod

namespace MethodParameter

/-- The references of a row. -/
def references (row : MethodParameter) : List Reference := [.orZero row.nameIndex .utf8]

/-- A parameter is read as it is written, if its name is there. -/
theorem inverts_read : (read pool).Inverts (fun row => .ok row.write) fun row =>
    ∀ r ∈ row.references, r.Resolves pool := by
  refine Reads.congr (reads_u2.bind fun nameIndex => reads_u2.bind fun accessFlags =>
    Reads.guard (pool.requireOptional nameIndex .utf8) fun _ => Reads.pure _)
      fun ⟨nameIndex, accessFlags⟩ bytes => ?_
  simp [write, references, eq_comm (b := bytes)]
  tauto

end MethodParameter

/-! ### Modules -/

namespace ModuleDescriptor

/-- The references of a required module. -/
def Requires.references (r : Requires) : List Reference :=
  [.required r.moduleIndex [.module], .orZero r.versionIndex .utf8]

/-- The references of an exported or opened package. -/
def Package.references (p : Package) : List Reference :=
  .required p.packageIndex [.package] :: p.modules.map fun index => .required index [.module]

/-- The references of a provided service. -/
def Provides.references (p : Provides) : List Reference :=
  .required p.serviceIndex [.classref] :: p.classes.map fun index => .required index [.classref]

/-- The references of the description of a module. -/
def references (m : ModuleDescriptor) : List Reference :=
  [.required m.nameIndex [.module], .orZero m.versionIndex .utf8] ++
    m.requires.flatMap Requires.references ++ m.exports.flatMap Package.references ++
    m.opens.flatMap Package.references ++ m.uses.map (fun index => .required index [.classref]) ++
    m.provides.flatMap Provides.references

/-- The references of a module are those of its tables, and of its name and its version. -/
theorem references_resolve_iff {m : ModuleDescriptor} : (∀ r ∈ m.references, r.Resolves pool) ↔
    pool.Refers m.nameIndex [.module] ∧ (m.versionIndex = 0 ∨ pool.Refers m.versionIndex [.utf8]) ∧
      (∀ p ∈ m.requires, ∀ r ∈ p.references, r.Resolves pool) ∧
        (∀ p ∈ m.exports, ∀ r ∈ p.references, r.Resolves pool) ∧
          (∀ p ∈ m.opens, ∀ r ∈ p.references, r.Resolves pool) ∧
            (∀ i ∈ m.uses, pool.Refers i [.classref]) ∧
              ∀ p ∈ m.provides, ∀ r ∈ p.references, r.Resolves pool := by
  simp [references, List.forall_mem_append, List.forall_mem_flatMap, -List.mem_append,
    -List.mem_flatMap]

/-- What a module requires is read as it is written, if it is there. -/
theorem Requires.inverts_read : (read pool).Inverts (fun r => .ok r.write) fun r =>
    ∀ ref ∈ r.references, ref.Resolves pool := by
  refine Reads.congr ((pool.reads_index [.module]).bind fun moduleIndex =>
    reads_u2.bind fun accessFlags =>
    (pool.reads_optionalIndex .utf8).bind fun versionIndex => Reads.pure _)
      fun ⟨moduleIndex, accessFlags, versionIndex⟩ bytes => ?_
  simp [write, references, eq_comm (b := bytes)]
  tauto

/-- A package is read as it is written, if it is there and so are the modules that it is for. -/
theorem Package.inverts_read : (read pool).Inverts write fun p => ∀ ref ∈ p.references,
    ref.Resolves pool := by
  refine Reads.congr ((pool.reads_index [.package]).bind fun packageIndex =>
    reads_u2.bind fun accessFlags =>
    (pool.inverts_indices .module).bind fun modules => Reads.pure _)
      fun ⟨packageIndex, accessFlags, modules⟩ bytes => ?_
  simp [write, references, eq_comm (b := bytes)]
  tauto

/-- A service is read as it is written, if it is there and so are the classes that provide it. -/
theorem Provides.inverts_read : (read pool).Inverts write fun p => ∀ ref ∈ p.references,
    ref.Resolves pool := by
  refine Reads.congr ((pool.reads_index [.classref]).bind fun serviceIndex =>
    (pool.inverts_indices .classref).bind fun classes => Reads.pure _)
      fun ⟨serviceIndex, classes⟩ bytes => ?_
  simp [write, references, eq_comm (b := bytes)]
  tauto

/-- A module is read as it is written, if all that its tables refer to is there. -/
theorem inverts_read : (read pool).Inverts write fun m => ∀ r ∈ m.references, r.Resolves pool := by
  refine Reads.congr ((pool.reads_index [.module]).bind fun nameIndex =>
    reads_u2.bind fun accessFlags => (pool.reads_optionalIndex .utf8).bind fun versionIndex =>
      (Inverts.table fun _ => Requires.inverts_read pool).within.bind fun requires =>
        (Inverts.table fun _ => Package.inverts_read pool).within.bind fun exports =>
          (Inverts.table fun _ => Package.inverts_read pool).within.bind fun opens =>
            (pool.inverts_indices .classref).within.bind fun uses =>
              (Inverts.table fun _ => Provides.inverts_read pool).within.bind fun provides =>
                Reads.pure _)
    fun ⟨nameIndex, accessFlags, versionIndex, requires, exports, opens, uses, provides⟩ bytes => ?_
  simp only [write, references_resolve_iff, bind_eq_ok, pure_eq_ok]
  constructor
  · rintro ⟨_, _, ⟨rfl, hname⟩, _, ⟨_, _, rfl, _, ⟨_, _, ⟨rfl, hversion⟩, _, ⟨_, a, ⟨ha, hrequires⟩,
      _, ⟨_, b, ⟨hb, hexports⟩, _, ⟨_, c, ⟨hc, hopens⟩, _, ⟨_, d, ⟨hd, huses⟩, _,
      ⟨_, e, ⟨he, hprovides⟩, _, ⟨hm, rfl⟩, rfl⟩, rfl⟩, rfl⟩, rfl⟩, rfl⟩, rfl⟩, rfl⟩, rfl⟩
    cases hm
    exact ⟨⟨a, ha, b, hb, c, hc, d, hd, e, he, by simp⟩, hname, hversion, hrequires, hexports,
      hopens, huses, hprovides⟩
  · rintro ⟨⟨a, ha, b, hb, c, hc, d, hd, e, he, rfl⟩, hname, hversion, hrequires, hexports, hopens,
      huses, hprovides⟩
    exact ⟨_, _, ⟨rfl, hname⟩, _, ⟨_, _, rfl, _, ⟨_, _, ⟨rfl, hversion⟩, _, ⟨_, a, ⟨ha, hrequires⟩,
      _, ⟨_, b, ⟨hb, hexports⟩, _, ⟨_, c, ⟨hc, hopens⟩, _, ⟨_, d, ⟨hd, huses⟩, _,
      ⟨_, e, ⟨he, hprovides⟩, [], ⟨rfl, rfl⟩, rfl⟩, rfl⟩, rfl⟩, rfl⟩, rfl⟩, rfl⟩, rfl⟩, by simp⟩

end ModuleDescriptor

end ClassFormat
