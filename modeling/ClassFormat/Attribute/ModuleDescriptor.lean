import ClassFormat.ConstantPool.Reference
import ClassFormat.Writer

/-!
# Module descriptors

What a module requires, exports, opens, uses and provides: the contents of the `Module`
attribute of a `module-info` class.
-/

namespace ClassFormat

namespace ModuleDescriptor

/-- A module that is required. -/
structure Requires where
  moduleIndex : UInt16
  accessFlags : UInt16
  /-- The version, or 0 if none is given. -/
  versionIndex : UInt16
  deriving DecidableEq

/-- A package that is exported or opened. -/
structure Package where
  packageIndex : UInt16
  accessFlags : UInt16
  /-- The modules to which it is exported or opened; none stand for all. -/
  modules : List UInt16
  deriving DecidableEq

/-- A service that is provided. -/
structure Provides where
  /-- The `Class` of the service. -/
  serviceIndex : UInt16
  /-- The classes that implement the service. -/
  classes : List UInt16
  deriving DecidableEq

end ModuleDescriptor

/-- The description of a module. -/
structure ModuleDescriptor where
  nameIndex : UInt16
  accessFlags : UInt16
  /-- The version, or 0 if none is given. -/
  versionIndex : UInt16
  requires : List ModuleDescriptor.Requires
  exports : List ModuleDescriptor.Package
  opens : List ModuleDescriptor.Package
  /-- The services that are used. -/
  uses : List UInt16
  provides : List ModuleDescriptor.Provides
  deriving DecidableEq

namespace ModuleDescriptor

/-- Reads a required module. -/
def Requires.read (pool : ConstantPool) : Reader Requires :=
  return ⟨← pool.readIndex [.module], ← Reader.u2, ← pool.readOptionalIndex .utf8⟩

/-- The bytes of a required module. -/
def Requires.write (r : Requires) : Bytes :=
  Writer.u2 r.moduleIndex ++ Writer.u2 r.accessFlags ++ Writer.u2 r.versionIndex

/-- Reads an exported or opened package. -/
def Package.read (pool : ConstantPool) : Reader Package :=
  return ⟨← pool.readIndex [.package], ← Reader.u2, ← pool.readIndices .module⟩

/-- The bytes of an exported or opened package. -/
def Package.write (p : Package) : Written :=
  return Writer.u2 p.packageIndex ++ Writer.u2 p.accessFlags ++ (← Writer.indices p.modules)

/-- Reads a provided service. -/
def Provides.read (pool : ConstantPool) : Reader Provides :=
  return ⟨← pool.readIndex [.classref], ← pool.readIndices .classref⟩

/-- The bytes of a provided service. -/
def Provides.write (p : Provides) : Written :=
  return Writer.u2 p.serviceIndex ++ (← Writer.indices p.classes)

/-- Reads the description of a module. -/
def read (pool : ConstantPool) : Reader ModuleDescriptor := do
  let nameIndex ← pool.readIndex [.module]
  let accessFlags ← Reader.u2
  let versionIndex ← pool.readOptionalIndex .utf8
  let part {α : Type} (which : ModulePart) (items : Reader α) : Reader α :=
    Reader.within (.inModulePart which) items
  let requires ← part .requires (Reader.table fun _ => Requires.read pool)
  let exports ← part .exports (Reader.table fun _ => Package.read pool)
  let opens ← part .opens (Reader.table fun _ => Package.read pool)
  let uses ← part .uses (pool.readIndices .classref)
  let provides ← part .provides (Reader.table fun _ => Provides.read pool)
  return { nameIndex, accessFlags, versionIndex, requires, exports, opens, uses, provides }

/-- The bytes of the description of a module. -/
def write (m : ModuleDescriptor) : Written := do
  let requires ← Writer.table (fun r => .ok (Requires.write r)) m.requires
  let exports ← Writer.table Package.write m.exports
  let opens ← Writer.table Package.write m.opens
  let uses ← Writer.indices m.uses
  let provides ← Writer.table Provides.write m.provides
  return Writer.u2 m.nameIndex ++ Writer.u2 m.accessFlags ++ Writer.u2 m.versionIndex ++
    requires ++ exports ++ opens ++ uses ++ provides

/-- The description in words: the name of the module, and how many parts of each sort it
    has. -/
def describe (pool : ConstantPool) (m : ModuleDescriptor) : Except Failure String := do
  let name ← Failure.inside .describingModule (pool.moduleName m.nameIndex)
  return s!"module {name.lossy} " ++ Display.parenthesised
    [s!"{m.requires.length} requires", s!"{m.exports.length} exports",
      s!"{m.opens.length} opens", s!"{m.uses.length} uses", s!"{m.provides.length} provides"]

end ModuleDescriptor

end ClassFormat
