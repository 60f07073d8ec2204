import Mathlib
import ClassFormat.ClassFile.Write
import ClassFormat.Proofs.Attribute.Site
import ClassFormat.Proofs.ConstantPool.Spelling

/-!
# Class files, read and written

A class file is its head, its constant pool and the rest. The rest is read back from what is
written for it exactly if the class file is admitted: all that it refers to is there.

* `ClassFile.sites`: the attributes of a class file at any depth, each with what is around it;
* `ClassFile.Admitted`: what is checked while a class file is read;
* `ClassFile.covers_read`: the class files that are read from a byte string;
* `ClassFile.toBytes_eq_ok`: what is written for a class file;
* `ClassFile.ofBytes_eq_ok`: the byte strings that a class file is read from.
-/

namespace ClassFormat

open Reader

/-! ### Attributes of a class file -/

/-- The site of the attributes of a member. -/
def Member.site (location : Location) (interfaces : Nat) (m : Member) : Site where
  location := location
  interfaces := interfaces
  exceptions := if location = .method then Attribute.exceptionCount m.attributes else 0
  code? := none

/-- The attributes of a member at any depth. -/
def Member.sites (location : Location) (interfaces : Nat) (m : Member) :
    List (Site × NamedAttribute) :=
  NamedAttribute.allSites (m.site location interfaces) m.attributes

/-- The references of a member, other than those of its attributes. -/
def Member.references (m : Member) : List Reference :=
  [.required m.nameIndex [.utf8], .required m.descriptorIndex [.utf8]]

/-- The site of the attributes of a class. -/
def ClassFile.site (c : ClassFile) : Site where
  location := .classFile
  interfaces := c.interfaces.length
  exceptions := 0
  code? := none

/-- The attributes of a class file at any depth, each with what is around it. -/
def ClassFile.sites (c : ClassFile) : List (Site × NamedAttribute) :=
  c.fields.flatMap (Member.sites .field c.interfaces.length) ++
    c.methods.flatMap (Member.sites .method c.interfaces.length) ++
      NamedAttribute.allSites c.site c.attributes

/-! ### Members -/

/-- Annotations of exceptions are checked against the number of these. -/
theorem TypeAnnotation.checkThrows_eq_ok {count : Nat} {list : List TypeAnnotation} :
    checkThrows count list = .ok () ↔
      ∀ t ∈ list, ∀ index, t.info = .throws index → index.toNat < count := by
  simp only [checkThrows, List.forM_eq_forM, forM_eq_ok]
  refine forall₂_congr fun t _ => ?_
  cases t.info <;> simp

namespace Attribute

/-- The exceptions that are annotated are declared. -/
def ThrowsWithin (count : Nat) (a : Attribute) : Prop :=
  ∀ t ∈ a.annotatedTypes, ∀ index, t.info = .throws index → index.toNat < count

/-- The annotations of a method name none but the exceptions that it declares. -/
theorem checkThrows_eq_ok {attributes : List NamedAttribute} : checkThrows attributes = .ok () ↔
    ∀ a ∈ attributes, a.content.ThrowsWithin (exceptionCount attributes) := by
  simp only [checkThrows, List.forM_eq_forM, forM_eq_ok]
  refine forall₂_congr fun a _ => ?_
  cases h : a.content <;> simp [ThrowsWithin, annotatedTypes, TypeAnnotation.checkThrows_eq_ok]

end Attribute

namespace Member

variable {pool : ConstantPool} {options : ReadOptions} {location : Location} {interfaces : Nat}

/-- A field or a method is written as its flags, its name, its type, and its attributes. -/
theorem write_eq_ok {m : Member} {bytes : Bytes} : m.write pool = .ok bytes ↔
    ∃ z, Attribute.writeList pool m.attributes = .ok z ∧ bytes = Writer.u2 m.accessFlags ++
      (Writer.u2 m.nameIndex ++ (Writer.u2 m.descriptorIndex ++ z)) := by
  simp [write, eq_comm (b := bytes)]

/-- What is checked of a member while it is read. -/
structure Admitted (pool : ConstantPool) (options : ReadOptions) (location : Location)
    (interfaces : Nat) (m : Member) : Prop where
  references : ∀ r ∈ m.references, r.Resolves pool
  sites : AllAdmitted pool options (m.sites location interfaces)
  throws : location = .method →
    ∀ a ∈ m.attributes, a.content.ThrowsWithin (Attribute.exceptionCount m.attributes)

/-- A member is read back with its attributes. -/
theorem inverts_read (hlocation : location ≠ .code) :
    (read ⟨pool, options, location, interfaces, none⟩).Inverts (write pool) fun m =>
      m.Admitted pool options location interfaces := by
  have hattributes : Inverts (do
      let attributes ← Attribute.readList ⟨pool, options, location, interfaces, none⟩
      if location = .method then Attribute.checkThrows attributes
      return attributes) (Attribute.writeList pool) fun attributes =>
        AllAdmitted pool options (NamedAttribute.allSites ⟨location, interfaces, 0, none⟩
          attributes) ∧ (location = .method → ∀ a ∈ attributes,
            a.content.ThrowsWithin (Attribute.exceptionCount attributes)) := by
    -- Exceptions are counted when all attributes have been read, so none is known of before.
    refine Reads.congr ((Attribute.inverts_readList pool options ⟨location, interfaces, 0, none⟩
      hlocation).bind (M := fun attributes list y => (location = .method → ∀ a ∈ attributes,
        a.content.ThrowsWithin (Attribute.exceptionCount attributes)) ∧ list = attributes ∧ y = [])
          fun attributes => ?_) fun attributes bytes => ⟨?_, ?_⟩
    · split
      next h =>
        exact (Reads.guard (Attribute.checkThrows attributes) fun _ => Reads.pure _).congr
            fun list y => by
          simp [h, Attribute.checkThrows_eq_ok]
      next h => exact (Reads.pure _).congr fun list y => by simp [h]
    · rintro ⟨attributes, z, ⟨hz, hsites⟩, _, ⟨hthrows, rfl, rfl⟩, rfl⟩
      exact ⟨by simpa using hz, hsites, hthrows⟩
    · rintro ⟨hz, hsites, hthrows⟩
      exact ⟨attributes, bytes, ⟨hz, hsites⟩, [], ⟨hthrows, rfl, rfl⟩, by simp⟩
  refine Reads.congr (reads_u2.bind fun accessFlags => reads_u2.bind fun nameIndex =>
    reads_u2.bind fun descriptorIndex => Reads.guard (pool.text nameIndex) fun name =>
      Reads.guard (pool.text descriptorIndex) fun descriptor => (Reads.log _).bind fun _ =>
        hattributes.within.bind fun attributes => Reads.pure _) fun m bytes => ⟨?_, ?_⟩
  · rintro ⟨accessFlags, _, rfl, _, ⟨nameIndex, _, rfl, _, ⟨descriptorIndex, _, rfl, _,
      ⟨hname, hdescriptor, _, _, rfl, _, ⟨attributes, z, ⟨hz, hsites, hthrows⟩, _, ⟨rfl, rfl⟩, rfl⟩,
      rfl⟩, rfl⟩, rfl⟩, rfl⟩
    simp only [ConstantPool.exists_text_eq_ok] at hname hdescriptor
    refine ⟨write_eq_ok.2 ⟨z, hz, by simp⟩, by simpa [Member.references] using ⟨hname, hdescriptor⟩,
      ?_, hthrows⟩
    exact (NamedAttribute.allAdmitted_exceptions ..).1 hsites
  · obtain ⟨accessFlags, nameIndex, descriptorIndex, attributes⟩ := m
    rintro ⟨hwrite, hrefs, hsites, hthrows⟩
    obtain ⟨z, hz, rfl⟩ := write_eq_ok.1 hwrite
    obtain ⟨hname, hdescriptor⟩ : pool.Refers nameIndex [.utf8] ∧
        pool.Refers descriptorIndex [.utf8] := by
      simpa [Member.references] using hrefs
    exact ⟨accessFlags, _, rfl, _, ⟨nameIndex, _, rfl, _, ⟨descriptorIndex, _, rfl, _,
      ⟨by simpa using hname, by simpa using hdescriptor, (), _, rfl, _, ⟨attributes, z, ⟨hz,
        (NamedAttribute.allAdmitted_exceptions ..).1 hsites, hthrows⟩, [], ⟨rfl, rfl⟩, rfl⟩, rfl⟩,
          rfl⟩, rfl⟩, by simp⟩

end Member

/-! ### Class files -/

namespace ClassFile

/-- The references of a class file, other than those of its members and attributes. -/
def ownReferences (c : ClassFile) : List Reference :=
  [.required c.thisClass [.classref], .orZero c.superClass .classref] ++
    c.interfaces.map fun index => .required index [.classref]

/-- What is checked of a class file while it is read. -/
structure Admitted (options : ReadOptions) (c : ClassFile) : Prop where
  references : ∀ r ∈ c.ownReferences, r.Resolves c.pool
  fields : ∀ m ∈ c.fields, m.Admitted c.pool options .field c.interfaces.length
  methods : ∀ m ∈ c.methods, m.Admitted c.pool options .method c.interfaces.length
  sites : AllAdmitted c.pool options (NamedAttribute.allSites c.site c.attributes)
  bootstrap : c.checkBootstrapIndices = .ok ()

/-- The bytes of a class file before its constant pool. -/
def head (c : ClassFile) : Bytes :=
  Writer.u4 magic ++ (Writer.u2 c.minorVersion ++ Writer.u2 c.majorVersion)

/-- The bytes of a class file after its constant pool. -/
def body (c : ClassFile) : Written := do
  let interfaces ← Writer.indices c.interfaces
  let fields ← Writer.table (Member.write c.pool) c.fields
  let methods ← Writer.table (Member.write c.pool) c.methods
  let attributes ← Attribute.writeList c.pool c.attributes
  return Writer.u2 c.accessFlags ++
    (Writer.u2 c.thisClass ++ (Writer.u2 c.superClass ++ (interfaces ++
    (fields ++ (methods ++ attributes)))))

/-- A table of members is written as any other, but for its notes. -/
theorem writeTable_eq_ok {pool : ConstantPool} {location : Location} {members : List Member}
    {bytes : Bytes} : Member.writeTable pool location members = .ok bytes ↔
      Writer.table (Member.write pool) members = .ok bytes := by
  simp only [Member.writeTable, Writer.table_eq_ok, inside_eq_ok]

/-- What follows the pool is written part by part. -/
theorem body_eq_ok {c : ClassFile} {bytes : Bytes} : c.body = .ok bytes ↔
    ∃ a, Writer.indices c.interfaces = .ok a ∧
      ∃ b, Writer.table (Member.write c.pool) c.fields = .ok b ∧
      ∃ d, Writer.table (Member.write c.pool) c.methods = .ok d ∧
        ∃ e, Attribute.writeList c.pool c.attributes = .ok e ∧
          bytes = Writer.u2 c.accessFlags ++
            (Writer.u2 c.thisClass ++ (Writer.u2 c.superClass ++ (a ++ (b ++ (d ++ e))))) := by
  simp only [body, bind_eq_ok, pure_eq_ok, eq_comm (b := bytes)]

/-- A class file is written as its header, its pool, and what follows that. -/
theorem toBytes_eq_ok {c : ClassFile} {bytes : Bytes} : c.toBytes = .ok bytes ↔
    ∃ x, c.pool.write = .ok x ∧ ∃ y, c.body = .ok y ∧ bytes = c.head ++ (x ++ y) := by
  simp only [toBytes, body, bind_eq_ok, pure_eq_ok, writeTable_eq_ok]
  constructor
  · rintro ⟨x, hx, a, ha, b, hb, d, hd, e, he, rfl⟩
    exact ⟨x, hx, _, ⟨a, ha, b, hb, d, hd, e, he, rfl⟩, by simp [head]⟩
  · rintro ⟨x, hx, _, ⟨a, ha, b, hb, d, hd, e, he, rfl⟩, rfl⟩
    exact ⟨x, hx, a, ha, b, hb, d, hd, e, he, by simp [head]⟩

/-- What is done when a class file has been read. -/
def finish (c : ClassFile) : Reader ClassFile := do
  let rest := (← get).rest
  if !rest.isEmpty then
    (Fault.malformed (.trailingData rest.length (← Reader.offset))).raise
  c.checkBootstrapIndices
  return c

/-- That the bootstrap methods are there is checked without reading on. -/
theorem reads_bootstrap (c : ClassFile) :
    Reads (do c.checkBootstrapIndices; return c) fun d bytes =>
      (c.checkBootstrapIndices = .ok () ∧ d = c) ∧ bytes = [] :=
  (Reads.guard c.checkBootstrapIndices fun _ => Reads.pure c).congr fun d bytes => by
    simp [and_assoc]

/-- At the end nothing may be left, and the bootstrap methods have to be there. -/
theorem covers_finish (c : ClassFile) : c.finish.Covers fun d bytes =>
    bytes = [] ∧ c.checkBootstrapIndices = .ok () ∧ d = c :=
  @Covers.ended _ (fun cursor o => .malformed (.trailingData cursor.rest.length o))
    _ _ c.reads_bootstrap

/-- No class file is given if bytes are left over. -/
theorem exhausts_finish (c : ClassFile) : c.finish.Exhausts :=
  @Exhausts.ended _ (fun cursor o => .malformed (.trailingData cursor.rest.length o))
    _ _ c.reads_bootstrap

/-- Reads the fields, the methods and the attributes of a class file. -/
def readParts (pool : ConstantPool) (options : ReadOptions) (interfaces : Nat) :
    Reader (List Member × List Member × List NamedAttribute) := do
  let fields ← Reader.table fun _ => Member.read ⟨pool, options, .field, interfaces, none⟩
  let methods ← Reader.table fun _ => Member.read ⟨pool, options, .method, interfaces, none⟩
  let attributes ← Attribute.readList ⟨pool, options, .classFile, interfaces, none⟩
  return (fields, methods, attributes)

/-- Fields, methods and attributes are read as they are written, if each of them is admitted. -/
theorem reads_parts (pool : ConstantPool) (options : ReadOptions) (interfaces : Nat) :
    (readParts pool options interfaces).Reads fun (fields, methods, attributes) bytes =>
        ∃ x, (Writer.table (Member.write pool) fields = .ok x ∧
          ∀ m ∈ fields, m.Admitted pool options .field interfaces) ∧
        ∃ y, (Writer.table (Member.write pool) methods = .ok y ∧
          ∀ m ∈ methods, m.Admitted pool options .method interfaces) ∧
        ∃ z, (Attribute.writeList pool attributes = .ok z ∧
          AllAdmitted pool options
            (NamedAttribute.allSites ⟨.classFile, interfaces, 0, none⟩ attributes)) ∧
        bytes = x ++ (y ++ z) := by
  refine Reads.congr ((Inverts.table fun _ => Member.inverts_read (by decide)).bind fun fields =>
    (Inverts.table fun _ => Member.inverts_read (by decide)).bind fun methods =>
      (Attribute.inverts_readList pool options ⟨.classFile, interfaces, 0, none⟩ nofun).bind
        fun attributes => Reads.pure _) fun ⟨fields, methods, attributes⟩ bytes => ⟨?_, ?_⟩
  · rintro ⟨fields, x, hx, _, ⟨methods, y, hy, _, ⟨attributes, z, hz, _, ⟨h, rfl⟩, rfl⟩, rfl⟩, rfl⟩
    cases h
    exact ⟨x, hx, y, hy, z, hz, by simp⟩
  · rintro ⟨x, hx, y, hy, z, hz, rfl⟩
    exact ⟨fields, x, hx, _, ⟨methods, y, hy, _, ⟨attributes, z, hz, [], ⟨rfl, rfl⟩, rfl⟩,
      rfl⟩, by simp⟩

/-- Reads a class file from behind its constant pool on. -/
def readBody (options : ReadOptions) (minorVersion majorVersion : UInt16) (pool : ConstantPool) :
    Reader ClassFile := do
  let accessFlags ← Reader.u2
  let thisClass ← Reader.u2
  let name ← Failure.inside .readingThisClass (pool.className thisClass)
  let superClass ← Reader.u2
  let _ ← Failure.inside .readingSuperClass (pool.requireOptional superClass .classref)
  let interfaces ← Reader.within .readingInterfaces (pool.readIndices .classref)
  let (fields, methods, attributes) ← Reader.within (.inClass name)
    (readParts pool options interfaces.length)
  finish
    { minorVersion, majorVersion, pool, accessFlags, thisClass, superClass, interfaces, fields,
      methods, attributes }

/-- A class file is read in two parts, since what follows the pool depends on it. -/
theorem read_eq (options : ReadOptions) : read options = (do
    let found ← Reader.u4
    if found ≠ magic then (Fault.magic found).raise
    let minorVersion ← Reader.u2
    let majorVersion ← Reader.u2
    let pool ← Reader.within .readingPool ConstantPool.read
    Reader.log (.pool pool.count majorVersion minorVersion)
    readBody options minorVersion majorVersion pool) := rfl

/-- What follows the pool is read as it is written, if the class file is admitted. -/
theorem covers_readBody (options : ReadOptions) (minor major : UInt16) {pool : ConstantPool}
    (hpool : pool.Resolved) : (readBody options minor major pool).Covers fun c bytes =>
      (c.minorVersion = minor ∧ c.majorVersion = major ∧ c.pool = pool) ∧ c.body = .ok bytes ∧
        c.Admitted options := by
  refine Covers.congr (Covers.bind reads_u2 fun accessFlags => Covers.bind reads_u2 fun thisClass =>
    Covers.guard (Failure.inside _ (pool.className thisClass)) fun name => Covers.bind reads_u2
      fun superClass => Covers.guard (Failure.inside _ (pool.requireOptional superClass .classref))
      fun _ => Covers.bind (pool.inverts_indices .classref).within fun interfaces =>
          Covers.bind (reads_parts pool options interfaces.length).within
            (M := fun parts (c : ClassFile) y => y = [] ∧ c.checkBootstrapIndices = .ok () ∧
              c = ⟨minor, major, pool, accessFlags, thisClass, superClass, interfaces, parts.1,
                parts.2.1, parts.2.2⟩)
                fun ⟨fields, methods, attributes⟩ => (covers_finish ⟨minor, major, pool,
                  accessFlags, thisClass, superClass, interfaces, fields, methods,
                  attributes⟩).congr fun c y => ?_) fun c bytes => ⟨?_, ?_⟩
  · refine and_congr_right fun _ => ⟨?_, ?_⟩ <;> rintro ⟨h, rfl⟩ <;> exact ⟨h, rfl⟩
  · rintro ⟨accessFlags, _, h₁, _, ⟨thisClass, _, h₂, _, ⟨hthis, superClass, _, h₃, _, ⟨hsuper,
      interfaces, a, ⟨ha, hinterfaces⟩, _, ⟨⟨fields, methods, attributes⟩, _, ⟨b, ⟨hb, hfields⟩, d,
      ⟨hd, hmethods⟩, e, ⟨he, hattributes⟩, h₄⟩, _, ⟨h₅, hbootstrap, h₆⟩, h₇⟩, h₈⟩, h₉⟩, h₁₀⟩, h₁₁⟩
    subst_vars
    simp only [inside_eq_ok, hpool.exists_className, ConstantPool.exists_requireOptional_eq_ok]
      at hthis hsuper
    refine ⟨⟨rfl, rfl, rfl⟩, body_eq_ok.2 ⟨a, ha, b, hb, d, hd, e, he, by simp⟩,
      ⟨?_, hfields, hmethods, hattributes, hbootstrap⟩⟩
    simpa [ownReferences] using ⟨hthis, hsuper, hinterfaces⟩
  · obtain ⟨minor', major', pool', accessFlags, thisClass, superClass, interfaces, fields,
      methods, attributes⟩ := c
    rintro ⟨⟨rfl, rfl, rfl⟩, hbody, hrefs, hfields, hmethods, hattributes, hbootstrap⟩
    obtain ⟨a, ha, b, hb, d, hd, e, he, rfl⟩ := body_eq_ok.1 hbody
    obtain ⟨hthis, hsuper, hinterfaces⟩ : pool'.Refers thisClass [.classref] ∧
      (superClass = 0 ∨ pool'.Refers superClass [.classref]) ∧ ∀ i ∈ interfaces,
          pool'.Refers i [.classref] := by
        simpa [ownReferences] using hrefs
    refine ⟨accessFlags, _, rfl, _, ⟨thisClass, _, rfl, _, ⟨?_, superClass, _, rfl, _,
      ⟨?_, interfaces, a, ⟨ha, hinterfaces⟩, _, ⟨(fields, methods, attributes), _,
      ⟨b, ⟨hb, hfields⟩, d, ⟨hd, hmethods⟩, e,
        ⟨he, hattributes⟩, rfl⟩, [], ⟨rfl, hbootstrap, rfl⟩, rfl⟩, rfl⟩, rfl⟩, rfl⟩, by simp⟩
    · simpa [hpool.exists_className] using hthis
    · simpa using hsuper

/-- What follows the pool is read to the end. -/
theorem exhausts_readBody (options : ReadOptions) (minor major : UInt16) (pool : ConstantPool) :
    (readBody options minor major pool).Exhausts :=
  Exhausts.bind fun _ => Exhausts.bind fun _ => Exhausts.bind fun _ => Exhausts.bind fun _ =>
    Exhausts.bind fun _ => Exhausts.bind fun _ => Exhausts.bind fun ⟨_, _, _⟩ => exhausts_finish _

/-- The class files that are read from a byte string, to its end. -/
theorem covers_read (options : ReadOptions) : (read options).Covers fun c bytes =>
    ∃ x y, c.pool.Spelled x ∧ c.pool.Resolved ∧ c.body = .ok y ∧ c.Admitted options ∧
      bytes = c.head ++ (x ++ y) := by
  rw [read_eq]
  refine Covers.congr (Covers.bind reads_u4 fun found => Covers.refuse (b := ())
    (Covers.bind reads_u2 fun minor =>
    Covers.bind reads_u2 fun major => Covers.bind_spelled ConstantPool.reads_read.within
      fun pool x hpool => Covers.bind (Reads.log _) fun _ => covers_readBody options minor major
      hpool.2)) fun c bytes => ⟨?_, ?_⟩
  · rintro ⟨found, _, rfl, _, ⟨hmagic, minor, _, rfl, _, ⟨major, _, rfl, _, ⟨pool, x,
      ⟨hspelled, hresolved⟩, _, ⟨_, _, rfl, _, ⟨⟨rfl, rfl, rfl⟩, hbody, hadmitted⟩, rfl⟩,
      rfl⟩, rfl⟩, rfl⟩, rfl⟩
    obtain rfl : found = magic := not_not.1 hmagic
    exact ⟨x, _, hspelled, hresolved, hbody, hadmitted, by simp [head]⟩
  · rintro ⟨x, y, hspelled, hresolved, hbody, hadmitted, rfl⟩
    exact ⟨magic, _, rfl, _, ⟨not_not.2 rfl, c.minorVersion, _, rfl, _, ⟨c.majorVersion, _, rfl, _,
      ⟨c.pool, x, ⟨hspelled, hresolved⟩, _, ⟨(), [], rfl, y, ⟨⟨rfl, rfl, rfl⟩, hbody, hadmitted⟩,
      rfl⟩, rfl⟩, rfl⟩, rfl⟩, by simp [head]⟩

/-- A class file is read to the end. -/
theorem exhausts_read (options : ReadOptions) : (read options).Exhausts := by
  rw [read_eq]
  exact Exhausts.bind fun _ => Exhausts.refuse (b := ()) <| Exhausts.bind fun _ =>
    Exhausts.bind fun _ => Exhausts.bind fun _ => Exhausts.bind fun _ =>
    exhausts_readBody options _ _ _

/-- To be read from bytes is to be read from their start. -/
theorem ofBytes_ok_iff {options : ReadOptions} {bytes : Bytes} {c : ClassFile} :
    ofBytes options bytes = .ok c ↔ ∃ cursor, read options (Cursor.start bytes) = .ok c cursor := by
  rw [ofBytes, ofBytesLogged]
  cases read options (Cursor.start bytes) <;> simp

/-- To fail on bytes is to fail on reading from their start. -/
theorem ofBytes_error_iff {options : ReadOptions} {bytes : Bytes} {f : Failure} :
    ofBytes options bytes = .error f ↔
      ∃ cursor, read options (Cursor.start bytes) = .error f cursor := by
  rw [ofBytes, ofBytesLogged]
  cases read options (Cursor.start bytes) <;> simp

/-- A byte string holds a class file exactly if it is the head, a spelling of the pool and the rest
    of one that is admitted. -/
theorem ofBytes_eq_ok {options : ReadOptions} {bytes : Bytes} {c : ClassFile} :
    ofBytes options bytes = .ok c ↔ ∃ x y, c.pool.Spelled x ∧ c.pool.Resolved ∧ c.body = .ok y ∧
      c.Admitted options ∧ bytes = c.head ++ (x ++ y) := by
  rw [ofBytes_ok_iff]
  constructor
  · rintro ⟨cursor, h⟩
    exact (covers_read options).sound h (exhausts_read options h)
  · intro h
    obtain ⟨cursor, h, -⟩ := (covers_read options).complete (c := Cursor.start bytes) h
    exact ⟨cursor, h⟩

/-! ### A class file -/

/-- A class with a method that throws a new object of the class and handles it. -/
def thrower : ClassFile where
  minorVersion := 0
  majorVersion := 52
  pool := ⟨#[none, some (.ofString "A"), some (.classref 1), some (.ofString "()V"),
    some (.ofString "Code")]⟩
  accessFlags := 0
  thisClass := 2
  superClass := 0
  interfaces := []
  fields := []
  methods :=
    [⟨0, 1, 3, [⟨4, .code ⟨1, 1, [⟨0, 0xBB, .constant 2⟩, ⟨3, 0xBF, .none⟩], [⟨0, 4, 3, 2⟩], []⟩⟩]⟩]
  attributes := []

/-- The bytes of `thrower`. -/
def throwerBytes : Bytes :=
  [0xCA, 0xFE, 0xBA, 0xBE, 0, 0, 0, 52,
    -- The pool: `A`, the class, `()V` and `Code`.
    0, 5, 1, 0, 1, 65, 7, 0, 1, 1, 0, 3, 40, 41, 86, 1, 0, 4, 67, 111, 100, 101,
    0, 0, 0, 2, 0, 0, 0, 0, 0, 0,
    -- The method, and its code: `new`, `athrow`, and the handler.
    0, 1, 0, 0, 0, 1, 0, 3, 0, 1, 0, 4, 0, 0, 0, 24, 0, 1, 0, 1, 0, 0, 0, 4, 0xBB, 0, 2, 0xBF,
    0, 1, 0, 0, 0, 4, 0, 3, 0, 2, 0, 0, 0, 0]

/-- The pool of the class is one that can be built constant by constant. -/
theorem built_thrower : thrower.pool.Built :=
  .push (.push (.push (.push .empty (c := .ofString "A") (by rfl)) (c := .classref 1) (by rfl))
    (c := .ofString "()V") (by rfl)) (c := .ofString "Code") (by rfl)

/-- The class is read from its bytes. -/
theorem ofBytes_thrower : ofBytes {} throwerBytes = .ok thrower := by cbv

/-- The class is written as its bytes. -/
theorem toBytes_thrower : thrower.toBytes = .ok throwerBytes := by cbv

end ClassFile

end ClassFormat
