import Mathlib
import ClassFormat.ClassFile.Edit
import ClassFormat.Proofs.Attribute.Codec

/-!
# Attributes inside attributes

Code and record components hold attributes of their own. `NamedAttribute.sites` lists an
attribute and all attributes in it, each with what is around it, and attributes are read back
from what is written for them exactly if each of these is admitted where it stands.

* `Site`: what is around an attribute;
* `NamedAttribute.sites`, `NamedAttribute.allSites`: attributes at any depth,
  `NamedAttribute.Within` being the same as a relation;
* `NamedAttribute.AdmittedBy`: an attribute may stand at a site, and what it refers to is there;
* `Attribute.inverts_readList`: the attributes of a class, a field or a method.
-/

namespace ClassFormat

open Reader

/-- What is around an attribute, as far as the attribute refers to it. -/
structure Site where
  location : Location
  /-- The number of interfaces of the class. -/
  interfaces : Nat
  /-- The number of exceptions that the method declares, for an attribute of a method. -/
  exceptions : Nat
  /-- The code, for an attribute of code. -/
  code? : Option Code

namespace Site

/-- The site of the attributes of code. -/
def inCode (site : Site) (code : Code) : Site where
  location := .code
  interfaces := site.interfaces
  exceptions := 0
  code? := some code

/-- The site of the attributes of a component of a record class. -/
def inComponent (site : Site) : Site where
  location := .recordComponent
  interfaces := site.interfaces
  exceptions := 0
  code? := none

end Site

/-! ### Attributes at any depth -/

mutual

/-- An attribute and all attributes in it, each with what is around it. -/
def NamedAttribute.sites (site : Site) : NamedAttribute → List (Site × NamedAttribute)
  | ⟨nameIndex, content⟩ => (site, ⟨nameIndex, content⟩) :: Attribute.sites site content

/-- The attributes in an attribute, each with what is around it. -/
def Attribute.sites (site : Site) : Attribute → List (Site × NamedAttribute)
  | .code body => Code.sites site body
  | .record components => RecordComponent.allSites site components
  | _ => []

/-- The attributes in code, each with what is around it. -/
def Code.sites (site : Site) : Code → List (Site × NamedAttribute)
  | ⟨maxStack, maxLocals, instructions, handlers, attributes⟩ =>
    NamedAttribute.allSites (site.inCode ⟨maxStack, maxLocals, instructions, handlers,
      attributes⟩) attributes

/-- The attributes in components, each with what is around it. -/
def RecordComponent.allSites (site : Site) : List RecordComponent → List (Site × NamedAttribute)
  | [] => []
  | ⟨_, _, attributes⟩ :: rest =>
    NamedAttribute.allSites site.inComponent attributes ++ RecordComponent.allSites site rest

/-- Attributes and all attributes in them, each with what is around it. -/
def NamedAttribute.allSites (site : Site) : List NamedAttribute → List (Site × NamedAttribute)
  | [] => []
  | a :: rest => NamedAttribute.sites site a ++ NamedAttribute.allSites site rest

end

/-- The attributes at all depths of a list are those of each attribute in it. -/
theorem NamedAttribute.allSites_eq_flatMap (site : Site) (attributes : List NamedAttribute) :
    NamedAttribute.allSites site attributes = attributes.flatMap (NamedAttribute.sites site) := by
  induction attributes with
  | nil => rw [allSites, List.flatMap_nil]
  | cons a rest ih => rw [allSites, ih, List.flatMap_cons]

/-- The attributes in a component. -/
def RecordComponent.sites (site : Site) (component : RecordComponent) :
    List (Site × NamedAttribute) :=
  NamedAttribute.allSites site.inComponent component.attributes

/-- The attributes at all depths of components are those of each component. -/
theorem RecordComponent.allSites_eq_flatMap (site : Site) (components : List RecordComponent) :
    RecordComponent.allSites site components = components.flatMap (RecordComponent.sites site) := by
  induction components with
  | nil => rw [allSites, List.flatMap_nil]
  | cons component rest ih =>
    obtain ⟨nameIndex, descriptorIndex, attributes⟩ := component
    rw [allSites, ih, List.flatMap_cons, sites]

/-- The attributes in code stand where those of code do. -/
theorem Code.sites_eq (site : Site) (code : Code) :
    code.sites site = NamedAttribute.allSites (site.inCode code) code.attributes := by
  obtain ⟨maxStack, maxLocals, instructions, handlers, attributes⟩ := code
  rw [sites]

/-- An attribute comes before those in it. -/
theorem NamedAttribute.sites_eq (site : Site) (a : NamedAttribute) :
    a.sites site = (site, a) :: a.content.sites site := by
  obtain ⟨nameIndex, content⟩ := a
  rw [sites]

namespace NamedAttribute

variable {site : Site} {attributes : List NamedAttribute} {p : Site × NamedAttribute}

/-- An attribute in a list or in one of its attributes, at any depth, with what is around it. -/
inductive Within : Site → List NamedAttribute → Site × NamedAttribute → Prop
  | listed {site : Site} {attributes : List NamedAttribute} {a : NamedAttribute}
    (ha : a ∈ attributes) : Within site attributes (site, a)
  | code {site : Site} {attributes : List NamedAttribute} {nameIndex : UInt16} {body : Code}
    {p : Site × NamedAttribute} (ha : ⟨nameIndex, .code body⟩ ∈ attributes)
    (hp : Within (site.inCode body) body.attributes p) : Within site attributes p
  | component {site : Site} {attributes : List NamedAttribute} {nameIndex : UInt16}
    {components : List RecordComponent} {component : RecordComponent} {p : Site × NamedAttribute}
    (ha : ⟨nameIndex, .record components⟩ ∈ attributes) (hc : component ∈ components)
    (hp : Within site.inComponent component.attributes p) : Within site attributes p

/-- An attribute of a list stands where the list does. -/
theorem mem_allSites {a : NamedAttribute} (ha : a ∈ attributes) :
    (site, a) ∈ allSites site attributes := by
  rw [allSites_eq_flatMap, List.mem_flatMap]
  exact ⟨a, ha, by simp [sites_eq]⟩

/-- What is within a list is found when its attributes are gathered. -/
theorem Within.mem_allSites (h : Within site attributes p) : p ∈ allSites site attributes := by
  induction h with
  | listed ha => exact NamedAttribute.mem_allSites ha
  | code ha _ ih =>
    rw [allSites_eq_flatMap, List.mem_flatMap]
    refine ⟨_, ha, ?_⟩
    rw [sites_eq, Attribute.sites, Code.sites_eq]
    exact List.mem_cons_of_mem _ ih
  | component ha hc _ ih =>
    rw [allSites_eq_flatMap, List.mem_flatMap]
    refine ⟨_, ha, ?_⟩
    rw [sites_eq, Attribute.sites, RecordComponent.allSites_eq_flatMap]
    exact List.mem_cons_of_mem _ (List.mem_flatMap.2 ⟨_, hc, ih⟩)

/-- What holds of attributes if it holds of those of the code and of the components in them holds of
    all attributes, which are nested in finitely many levels. -/
theorem nested_induction {motive : List NamedAttribute → Prop}
    (nested : ∀ attributes : List NamedAttribute,
      (∀ nameIndex body, ⟨nameIndex, .code body⟩ ∈ attributes → motive body.attributes) →
      (∀ nameIndex components, ⟨nameIndex, .record components⟩ ∈ attributes →
        ∀ component ∈ components, motive component.attributes) → motive attributes)
    (attributes : List NamedAttribute) : motive attributes := by
  refine nested attributes (fun nameIndex body ha => ?_)
    fun nameIndex components ha component hc => ?_
  · exact nested_induction nested body.attributes
  · exact nested_induction nested component.attributes
termination_by sizeOf attributes
decreasing_by
  · have hsize := List.sizeOf_lt_of_mem ha
    obtain ⟨_, _, _, _, inner⟩ := body
    simp only [NamedAttribute.mk.sizeOf_spec, Attribute.code.sizeOf_spec, Code.mk.sizeOf_spec]
      at hsize ⊢
    omega
  · have hsize := List.sizeOf_lt_of_mem ha
    have hcomponent := List.sizeOf_lt_of_mem hc
    obtain ⟨_, _, inner⟩ := component
    simp only [NamedAttribute.mk.sizeOf_spec, Attribute.record.sizeOf_spec,
      RecordComponent.mk.sizeOf_spec] at hsize hcomponent ⊢
    omega

/-- What is found when the attributes of a list are gathered is within the list. -/
theorem within_of_mem {site : Site} (attributes : List NamedAttribute)
    (hp : p ∈ allSites site attributes) : Within site attributes p := by
  induction attributes using nested_induction generalizing site with
  | nested attributes hcode hrecord =>
    rw [allSites_eq_flatMap, List.mem_flatMap] at hp
    obtain ⟨⟨nameIndex, content⟩, ha, hp⟩ := hp
    rw [sites_eq] at hp
    rcases List.mem_cons.1 hp with rfl | hp
    · exact .listed ha
    · cases content with
      | code body =>
        rw [Attribute.sites, Code.sites_eq] at hp
        exact .code ha (hcode nameIndex body ha hp)
      | record components =>
        rw [Attribute.sites, RecordComponent.allSites_eq_flatMap, List.mem_flatMap] at hp
        obtain ⟨component, hc, hp⟩ := hp
        exact .component ha hc (hrecord nameIndex components ha component hc hp)
      | _ => simp [Attribute.sites] at hp

/-- The attributes of code in an attribute are in that attribute. -/
theorem Within.of_code {body : Code} {a : NamedAttribute} (h : Within site attributes p)
    (hbody : p.2.content = .code body) (ha : a ∈ body.attributes) :
    Within site attributes (p.1.inCode body, a) := by
  induction h with
  | @listed _ _ held hheld =>
    obtain ⟨nameIndex, content⟩ := held
    cases hbody
    exact .code hheld (.listed ha)
  | code hheld _ ih => exact .code hheld (ih hbody)
  | component hheld hc _ ih => exact .component hheld hc (ih hbody)

/-- An attribute that is in code is one of that code, which in turn is in an attribute. -/
theorem Within.exists_code {code : Code} (h : Within site attributes p)
    (hcode : p.1.code? = some code) : site.code? = some code ∧ p.2 ∈ attributes ∨
      ∃ q, Within site attributes q ∧ q.2.content = .code code ∧ p.2 ∈ code.attributes := by
  induction h with
  | listed ha => exact Or.inl ⟨hcode, ha⟩
  | code ha _ ih =>
    rcases ih hcode with ⟨hbody, hmem⟩ | ⟨q, hq, hcontent, hmem⟩
    · cases hbody
      exact Or.inr ⟨_, .listed ha, rfl, hmem⟩
    · exact Or.inr ⟨q, .code ha hq, hcontent, hmem⟩
  | component ha hc _ ih =>
    rcases ih hcode with ⟨hnone, -⟩ | ⟨q, hq, hcontent, hmem⟩
    · cases hnone
    · exact Or.inr ⟨q, .component ha hc hq, hcontent, hmem⟩

end NamedAttribute

/-- The property passes on from a site to those of what is in code with another property, and to
    those of what is in components. -/
structure Site.Passes (C : Code → Prop) (P : Site → Prop) : Prop where
  code : ∀ {site body}, C body → P site → P (site.inCode body)
  component : ∀ {site}, P site → P site.inComponent

/-- A property that passes on holds at any depth. -/
theorem NamedAttribute.forall_allSites {C : Code → Prop} {P : Site → Prop} (hpass : Site.Passes C P)
    {site : Site}
    (attributes : List NamedAttribute) (h : P site)
    (hC : ∀ q ∈ allSites site attributes, ∀ body, q.2.content = .code body → C body) :
    ∀ q ∈ allSites site attributes, P q.1 := by
  intro q hq
  have hwithin := within_of_mem attributes hq
  clear hq
  induction hwithin with
  | listed _ => exact h
  | code ha _ ih =>
    refine ih (hpass.code (hC _ (mem_allSites ha) _ rfl) h) fun q hq => hC q ?_
    exact (Within.code ha (within_of_mem _ hq)).mem_allSites
  | component ha hc _ ih =>
    refine ih (hpass.component h) fun q hq => hC q ?_
    exact (Within.component ha hc (within_of_mem _ hq)).mem_allSites

/-- What is in an attribute is in code or in a component. -/
theorem Attribute.location_of_mem_sites {site : Site} {a : Attribute} {q : Site × NamedAttribute}
    (hq : q ∈ a.sites site) : q.1.location = .code ∨ q.1.location = .recordComponent := by
  have hpass : Site.Passes (fun _ => True) fun site =>
      site.location = .code ∨ site.location = .recordComponent :=
      ⟨fun _ _ => Or.inl rfl, fun _ => Or.inr rfl⟩
  cases a with
  | code body =>
    rw [sites, Code.sites_eq] at hq
    exact NamedAttribute.forall_allSites hpass body.attributes (Or.inl rfl) (by simp) q hq
  | record components =>
    rw [sites, RecordComponent.allSites_eq_flatMap, List.mem_flatMap] at hq
    obtain ⟨component, -, hq⟩ := hq
    exact NamedAttribute.forall_allSites hpass component.attributes (Or.inr rfl) (by simp) q hq
  | _ => simp [sites] at hq

/-- An attribute is one of those listed, or in code or in a component. -/
theorem NamedAttribute.mem_of_mem_allSites {site : Site} {attributes : List NamedAttribute}
    {q : Site × NamedAttribute} (hq : q ∈ NamedAttribute.allSites site attributes)
    (hcode : q.1.location ≠ .code) (hcomponent : q.1.location ≠ .recordComponent) :
    q.1 = site ∧ q.2 ∈ attributes := by
  rw [NamedAttribute.allSites_eq_flatMap, List.mem_flatMap] at hq
  obtain ⟨a, ha, hq⟩ := hq
  rw [NamedAttribute.sites_eq] at hq
  rcases List.mem_cons.1 hq with rfl | hq
  · exact ⟨rfl, ha⟩
  · rcases Attribute.location_of_mem_sites hq with h | h
    · exact absurd h hcode
    · exact absurd h hcomponent

/-- What is in an attribute is not where the attribute is. -/
theorem Attribute.sites_exceptions (location : Location) (interfaces m n : Nat)
    (code? : Option Code) (a : Attribute) :
    a.sites ⟨location, interfaces, m, code?⟩ = a.sites ⟨location, interfaces, n, code?⟩ := by
  cases a with
  | code body => rw [sites, sites, Code.sites_eq, Code.sites_eq]; rfl
  | record components =>
    rw [sites, sites, RecordComponent.allSites_eq_flatMap, RecordComponent.allSites_eq_flatMap]
    rfl
  | _ => simp only [sites]

/-! ### What is admitted -/

/-- What the attributes of code are checked against. -/
def Code.map (verify : Bool) (code : Code) : CodeMap :=
  { CodeMap.ofInstructions (code.length.toOption.getD 0) code.instructions verify with
    handlers := code.handlers.length }

/-- The instructions of code are as they are decoded, and its branches and its exception handlers
    lead to instructions, if that is verified. -/
structure Code.AdmittedBy (verify : Bool) (code : Code) : Prop where
  recorded : Instruction.Recorded code.instructions
  admissible : ∀ i ∈ code.instructions, i.operands.Admissible
  branches : ∀ i ∈ code.instructions, ∀ o ∈ i.offsets, (code.map verify).Admits o
  handlers : ∀ h ∈ code.handlers, h.AdmittedBy (code.map verify)

/-- What the reader knows at a site. -/
def Site.surroundings (pool : ConstantPool) (options : ReadOptions) (site : Site) :
    Surroundings where
  pool := pool
  options := options
  location := site.location
  interfaces := site.interfaces
  code? := site.code?.map (Code.map options.verifyCodeOffsets)

/-- An attribute may stand where it is, and what it refers to is there, other than what attributes
    in it refer to. -/
structure NamedAttribute.AdmittedBy (s : Surroundings) (a : NamedAttribute) : Prop where
  name : s.pool.Refers a.nameIndex [.utf8]
  registered : a.Registered s.pool s.location
  content : a.content.AdmittedBy s
  code : ∀ body, a.content = .code body → body.AdmittedBy s.options.verifyCodeOffsets

/-- Every attribute is admitted at its site. -/
def AllAdmitted (pool : ConstantPool) (options : ReadOptions)
    (sites : List (Site × NamedAttribute)) : Prop :=
  ∀ p ∈ sites, p.2.AdmittedBy (p.1.surroundings pool options)

variable {s : Surroundings} {pool : ConstantPool} {options : ReadOptions} {site : Site}

/-- Declared exceptions are not counted when attributes are read. -/
theorem NamedAttribute.allAdmitted_exceptions (location : Location) (interfaces m n : Nat)
    (code? : Option Code) (attributes : List NamedAttribute) :
    AllAdmitted pool options (allSites ⟨location, interfaces, m, code?⟩ attributes) ↔
      AllAdmitted pool options (allSites ⟨location, interfaces, n, code?⟩ attributes) := by
  simp only [AllAdmitted, allSites_eq_flatMap, List.forall_mem_flatMap, sites_eq,
    List.forall_mem_cons]
  refine forall₂_congr fun a _ => and_congr Iff.rfl ?_
  rw [Attribute.sites_exceptions]

/-! ### Attributes of code and of components -/

/-- A list of attributes is written as a table. -/
theorem Attribute.writeList_eq_table (pool : ConstantPool) :
    Attribute.writeList pool = Writer.table (NamedAttribute.write pool) := by
  funext attributes
  have h : NamedAttribute.writeAll pool [] attributes = Writer.rows
      (NamedAttribute.write pool) attributes :=
    Writer.gathered_eq_rows (fun done => by rw [NamedAttribute.writeAll]) fun done a rest => by
      rw [NamedAttribute.writeAll]
  rw [Attribute.writeList, h, Writer.table]

/-- Neither code nor records may stand in an attribute. -/
theorem Attribute.Kind.ne_of_inner {kind : Kind} {location : Location}
    (hinner : location = .code ∨ location = .recordComponent) (h : location ∈ kind.locations) :
    kind ≠ .code ∧ kind ≠ .record := by
  constructor <;> rintro rfl <;> rcases hinner with rfl | rfl <;> revert h <;> decide

/-- Where attributes stand in others, neither code nor a record is decoded. -/
theorem NamedAttribute.Registered.kind?_ne {a : NamedAttribute} {location : Location}
    (h : a.Registered pool location) (hinner : location = .code ∨ location = .recordComponent) :
    a.content.kind? ≠ some .code ∧ a.content.kind? ≠ some .record := by
  rw [Registered] at h
  cases hkind : a.content.kind? with
  | none => simp
  | some kind =>
    rw [hkind] at h
    simpa using Attribute.Kind.ne_of_inner hinner h

/-- An attribute of code or of a component is read back. -/
theorem Attribute.inverts_readInner (s : Surroundings)
    (hinner : s.location = .code ∨ s.location = .recordComponent)
    (hcode : s.location = .code → ∃ map, s.code? = some map) :
    (NamedAttribute.read s (readLeaf s)).Inverts (NamedAttribute.write s.pool) fun a =>
      a.AdmittedBy s := by
  refine (NamedAttribute.inverts_read (P := fun content => content.AdmittedBy s)
    (fun body => by simp [admittedBy_iff]) fun kind hkind => ?_).congr fun a bytes => ?_
  · obtain ⟨h₁, h₂⟩ := Kind.ne_of_inner hinner hkind
    exact covers_readLeaf s hcode h₁ h₂
  · refine and_congr_right fun _ => ⟨?_, ?_⟩
    · rintro ⟨hname, hregistered, hcontent⟩
      refine ⟨hname, hregistered, hcontent, fun body hbody => ?_⟩
      exact absurd (by rw [hbody]; rfl) (hregistered.kind?_ne hinner).1
    · intro h
      exact ⟨h.name, h.registered, h.content⟩

/-- A list of attributes within another attribute is read as it is written. -/
theorem Attribute.inverts_readInnerList (s : Surroundings)
    (hinner : s.location = .code ∨ s.location = .recordComponent)
    (hcode : s.location = .code → ∃ map, s.code? = some map) :
    (readInnerList s).Inverts (writeList s.pool) fun attributes => ∀ a ∈ attributes,
      a.AdmittedBy s := by
  rw [writeList_eq_table]
  exact Inverts.table fun _ => inverts_readInner s hinner hcode

/-- There are attributes in code and in records only. -/
theorem Attribute.sites_eq_nil {a : Attribute} (hcode : a.kind? ≠ some .code)
    (hrecord : a.kind? ≠ some .record) : a.sites site = [] := by
  cases a with
  | code body => exact absurd rfl hcode
  | record components => exact absurd rfl hrecord
  | _ => simp [sites]

/-- Attributes of code and of components hold no attributes. -/
theorem NamedAttribute.allAdmitted_inner {attributes : List NamedAttribute}
    (hinner : site.location = .code ∨ site.location = .recordComponent) :
    AllAdmitted pool options (allSites site attributes) ↔
      ∀ a ∈ attributes, a.AdmittedBy (site.surroundings pool options) := by
  simp only [AllAdmitted, allSites_eq_flatMap, List.forall_mem_flatMap, sites_eq,
    List.forall_mem_cons]
  refine forall₂_congr fun a _ => ⟨fun h => h.1, fun h => ⟨h, ?_⟩⟩
  obtain ⟨h₁, h₂⟩ := h.registered.kind?_ne hinner
  rw [Attribute.sites_eq_nil h₁ h₂]
  exact List.forall_mem_nil _

/-! ### Code -/

namespace Code

/-- Code is neither empty nor longer than it may be. -/
theorem checkLength_eq_ok {length : Nat} :
    checkLength length = .ok () ↔ 0 < length ∧ length ≤ maxLength := by
  simp [checkLength, Nat.pos_iff_ne_zero]

/-- Code is written as its sizes, its instructions with their length, its handlers, and its
    attributes. -/
theorem write_eq_ok {code : Code} {bytes : Bytes} : code.write pool = .ok bytes ↔
    ∃ x, Instruction.encode code.instructions = .ok x ∧ checkLength x.length = .ok () ∧
      ∃ y, ExceptionHandler.writeTable code.handlers = .ok y ∧
        ∃ z, Attribute.writeList pool code.attributes = .ok z ∧
          bytes = Writer.u2 code.maxStack ++ (Writer.u2 code.maxLocals ++
            (Writer.u4 (UInt32.ofNat x.length) ++ (x ++ (y ++ z)))) := by
  have hu4 {n : Nat} (h : checkLength n = .ok ()) : Writer.u4 (UInt32.ofNat n) =
      BigEndian.ofNat 4 n := by
    have hn := (checkLength_eq_ok.1 h).2
    rw [Writer.u4, UInt32.toNat_ofNat_of_lt' (lt_of_le_of_lt hn (by decide))]
  obtain ⟨maxStack, maxLocals, instructions, handlers, attributes⟩ := code
  simp only [write, Attribute.writeList, bind_eq_ok, pure_eq_ok]
  constructor
  · rintro ⟨x, hx, _, hcheck, y, hy, count, hcount, z, hz, rfl⟩
    exact ⟨x, hx, hcheck, y, hy, _, ⟨count, hcount, z, hz, rfl⟩, by simp [hu4 hcheck]⟩
  · rintro ⟨x, hx, hcheck, y, hy, _, ⟨count, hcount, z, hz, rfl⟩, rfl⟩
    exact ⟨x, hx, (), hcheck, y, hy, count, hcount, z, hz, by simp [hu4 hcheck]⟩

/-- The attributes of code are read with the map of the code around. -/
theorem surroundings_inCode {code : Code} :
    (site.inCode code).surroundings pool options =
      (site.surroundings pool options).inCode (code.map options.verifyCodeOffsets) := rfl

/-- The map of the code is that of the instructions as they are encoded. -/
theorem map_eq {verify : Bool} {code : Code} {x : Bytes}
    (h : Instruction.encode code.instructions = .ok x) :
    code.map verify = { CodeMap.ofInstructions x.length code.instructions verify with
      handlers := code.handlers.length } := by
  have hlength : code.length = .ok x.length := by simp [length, h]
  rw [map, hlength]
  rfl

/-- Code is read back with its attributes, if its length fits. -/
theorem inverts_read (pool : ConstantPool) (options : ReadOptions) (site : Site) :
    (read (site.surroundings pool options)).Inverts (write pool) fun code =>
      (∀ r ∈ code.references, r.Resolves pool) ∧ code.AdmittedBy options.verifyCodeOffsets ∧
        AllAdmitted pool options (code.sites site) := by
  refine Reads.congr (reads_u2.bind fun maxStack => reads_u2.bind fun maxLocals =>
    reads_u4.bind fun length => Reads.guard (checkLength length.toNat) fun _ =>
      (Instruction.inverts_decode pool length.toNat_lt).bind fun instructions =>
        Reads.guard (CodeMap.requireAllTargets _ instructions) fun _ =>
          (ExceptionHandler.inverts_readTable pool _).bind fun handlers =>
            (Attribute.inverts_readInnerList (Surroundings.inCode _ _) (Or.inl rfl) fun _ =>
              ⟨_, rfl⟩).bind fun attributes => Reads.pure _) fun code bytes => ⟨?_, ?_⟩
  · rintro ⟨maxStack, _, rfl, _, ⟨maxLocals, _, rfl, _, ⟨length, _, rfl, _, ⟨hcheck, instructions,
      x, ⟨hlength, henc, hrec, hall⟩, _, ⟨htargets, handlers, y, ⟨hy, hhandlers⟩, _, ⟨attributes, z,
      ⟨hz, hattrs⟩, _, ⟨rfl, rfl⟩, rfl⟩, rfl⟩, rfl⟩, rfl⟩, rfl⟩, rfl⟩
    have hmap := @map_eq options.verifyCodeOffsets ⟨maxStack, maxLocals, instructions, handlers,
      attributes⟩ _ henc
    rw [hlength] at hmap
    rw [exists_unit_eq_ok, ← hlength] at hcheck
    rw [exists_unit_eq_ok, CodeMap.requireAllTargets_eq_ok] at htargets
    refine ⟨write_eq_ok.2 ⟨x, henc, hcheck, y, hy, z, hz, by simp [hlength]⟩,
      List.forall_mem_append.2 ⟨?_, ?_⟩, ⟨hrec, fun i hi => (hall i hi).1, ?_, fun h hh => ?_⟩, ?_⟩
    · exact List.forall_mem_flatMap.2 fun i hi => (hall i hi).2
    · exact List.forall_mem_flatMap.2 fun h hh => (hhandlers h hh).1
    · rw [hmap]
      exact htargets
    · rw [hmap]
      exact ⟨(hhandlers h hh).2.offsets, (hhandlers h hh).2.nonempty⟩
    · rw [sites_eq, NamedAttribute.allAdmitted_inner (Or.inl rfl), surroundings_inCode, hmap]
      exact hattrs
  · rintro ⟨hwrite, hrefs, hcode, hsites⟩
    obtain ⟨x, henc, hcheck, y, hy, z, hz, rfl⟩ := write_eq_ok.1 hwrite
    obtain ⟨maxStack, maxLocals, instructions, handlers, attributes⟩ := code
    obtain ⟨hirefs, hhrefs⟩ := List.forall_mem_append.1 hrefs
    rw [List.forall_mem_flatMap] at hirefs hhrefs
    -- What is read is checked against the map for the length that is written.
    have hlength : x.length = (UInt32.ofNat x.length).toNat :=
      (UInt32.toNat_ofNat_of_lt' (lt_of_le_of_lt (checkLength_eq_ok.1 hcheck).2 (by decide))).symm
    have hmap := @map_eq options.verifyCodeOffsets _ _ henc
    rw [hlength] at hmap
    rw [sites_eq, NamedAttribute.allAdmitted_inner (Or.inl rfl), surroundings_inCode, hmap]
      at hsites
    have hbranches := hcode.branches
    have hhandlers := hcode.handlers
    rw [hmap] at hbranches hhandlers
    refine ⟨maxStack, _, rfl, _, ⟨maxLocals, _, rfl, _, ⟨_, _, rfl, _, ⟨⟨(), hlength ▸ hcheck⟩,
      instructions, x, ⟨hlength, henc, hcode.recorded, fun i hi =>
      ⟨hcode.admissible i hi, hirefs i hi⟩⟩, _,
        ⟨⟨(), CodeMap.requireAllTargets_eq_ok.2 hbranches⟩, handlers, y,
          ⟨hy, fun h hh => ⟨hhrefs h hh, ?_⟩⟩, _,
          ⟨attributes, z, ⟨hz, hsites⟩, [], ⟨rfl, rfl⟩, rfl⟩, rfl⟩, rfl⟩, rfl⟩, rfl⟩, by simp⟩
    exact ⟨(hhandlers h hh).offsets, (hhandlers h hh).nonempty⟩

end Code

/-! ### Record components -/

namespace RecordComponent

/-- A component is written as its name, its type, and its attributes. -/
theorem write_eq_ok {component : RecordComponent} {bytes : Bytes} :
    component.write pool = .ok bytes ↔ ∃ z, Attribute.writeList pool component.attributes = .ok z ∧
      bytes = Writer.u2 component.nameIndex ++ (Writer.u2 component.descriptorIndex ++ z) := by
  obtain ⟨nameIndex, descriptorIndex, attributes⟩ := component
  simp only [write, Attribute.writeList, bind_eq_ok, pure_eq_ok]
  constructor
  · rintro ⟨count, hcount, z, hz, rfl⟩
    exact ⟨_, ⟨count, hcount, z, hz, rfl⟩, by simp⟩
  · rintro ⟨_, ⟨count, hcount, z, hz, rfl⟩, rfl⟩
    exact ⟨count, hcount, z, hz, by simp⟩

/-- A component is read as it is written, if its references resolve and its attributes are admitted.
    -/
theorem inverts_read (pool : ConstantPool) (options : ReadOptions) (site : Site) :
    (read (site.surroundings pool options)).Inverts (write pool) fun component =>
      (∀ r ∈ component.references, r.Resolves pool) ∧
        AllAdmitted pool options (component.sites site) := by
  refine Reads.congr (reads_u2.bind fun nameIndex => reads_u2.bind fun descriptorIndex =>
    Reads.guard (pool.text nameIndex) fun name => Reads.guard (pool.require descriptorIndex [.utf8])
      fun _ => (Attribute.inverts_readInnerList (site.inComponent.surroundings pool options)
      (Or.inr rfl) nofun).within.bind
        fun attributes => Reads.pure _) fun component bytes => ⟨?_, ?_⟩
  · rintro ⟨nameIndex, _, rfl, _, ⟨descriptorIndex, _, rfl, _, ⟨hname, hdescriptor, attributes, z,
      ⟨hz, hattrs⟩, _, ⟨rfl, rfl⟩, rfl⟩, rfl⟩, rfl⟩
    simp only [ConstantPool.exists_text_eq_ok, ConstantPool.exists_require_eq_ok]
      at hname hdescriptor
    refine ⟨write_eq_ok.2 ⟨z, hz, by simp⟩, ?_, ?_⟩
    · simpa [references] using ⟨hname, hdescriptor⟩
    · rw [sites, NamedAttribute.allAdmitted_inner (Or.inr rfl)]
      exact hattrs
  · obtain ⟨nameIndex, descriptorIndex, attributes⟩ := component
    rintro ⟨hwrite, hrefs, hsites⟩
    obtain ⟨z, hz, rfl⟩ := write_eq_ok.1 hwrite
    obtain ⟨hname, hdescriptor⟩ : pool.Refers nameIndex [.utf8] ∧
        pool.Refers descriptorIndex [.utf8] := by
      simpa [references] using hrefs
    rw [sites, NamedAttribute.allAdmitted_inner (Or.inr rfl)] at hsites
    exact ⟨nameIndex, _, rfl, _, ⟨descriptorIndex, _, rfl, _,
      ⟨by simpa using hname, by simpa using hdescriptor,
      attributes, z, ⟨hz, hsites⟩, [], ⟨rfl, rfl⟩, rfl⟩, rfl⟩, by simp⟩

end RecordComponent

/-! ### Attributes of classes, fields and methods -/

namespace Attribute

/-- An attribute outside of code and of components is admitted, and so is every attribute in it. -/
structure DeeplyAdmitted (pool : ConstantPool) (options : ReadOptions) (site : Site)
    (a : Attribute) : Prop where
  content : a.AdmittedBy (site.surroundings pool options)
  code : ∀ body, a = .code body → body.AdmittedBy options.verifyCodeOffsets
  sites : AllAdmitted pool options (a.sites site)

/-- Code is admitted if its references resolve, its offsets are verified, and its attributes are
    admitted. -/
theorem deeplyAdmitted_code {body : Code} : (code body).DeeplyAdmitted pool options site ↔
    (∀ r ∈ body.references, r.Resolves pool) ∧ body.AdmittedBy options.verifyCodeOffsets ∧
      AllAdmitted pool options (body.sites site) := by
  constructor
  · rintro ⟨hcontent, hcode, hsites⟩
    rw [Attribute.sites] at hsites
    exact ⟨hcontent.references, hcode body rfl, hsites⟩
  · rintro ⟨hrefs, hcode, hsites⟩
    refine ⟨by simpa [admittedBy_iff, Site.surroundings] using hrefs,
      fun body' h => ?_, by rwa [Attribute.sites]⟩
    cases h
    exact hcode

/-- A record is admitted if each of its components is. -/
theorem deeplyAdmitted_record {components : List RecordComponent} :
    (record components).DeeplyAdmitted pool options site ↔
      ∀ component ∈ components, (∀ r ∈ component.references, r.Resolves pool) ∧
        AllAdmitted pool options (component.sites site) := by
  have hsites : AllAdmitted pool options ((record components).sites site) ↔
      ∀ component ∈ components, AllAdmitted pool options (component.sites site) := by
    simp only [sites, RecordComponent.allSites_eq_flatMap, AllAdmitted, List.forall_mem_flatMap]
  have hcontent : (record components).AdmittedBy (site.surroundings pool options) ↔
      ∀ component ∈ components, ∀ r ∈ component.references, r.Resolves pool := by
    simp [admittedBy_iff, List.forall_mem_flatMap, Site.surroundings, -List.mem_flatMap]
  constructor
  · intro h component hc
    exact ⟨hcontent.1 h.content component hc, hsites.1 h.sites component hc⟩
  · intro h
    exact ⟨hcontent.2 fun c hc => (h c hc).1, nofun, hsites.2 fun c hc => (h c hc).2⟩

/-- There is nothing in an attribute that holds no others, so it is admitted as it is. -/
theorem deeplyAdmitted_leaf {a : Attribute} (hcode : a.kind? ≠ some .code)
    (hrecord : a.kind? ≠ some .record) :
    a.DeeplyAdmitted pool options site ↔ a.AdmittedBy (site.surroundings pool options) := by
  refine ⟨fun h => h.content, fun h => ⟨h, fun body hbody => ?_, ?_⟩⟩
  · exact absurd (by rw [hbody]; rfl) hcode
  · rw [sites_eq_nil hcode hrecord]
    exact List.forall_mem_nil _

/-- A record is written as a table of its components. -/
theorem write_record (components : List RecordComponent) :
    (record components).write pool = Writer.table (RecordComponent.write pool) components := by
  have h : RecordComponent.writeAll pool [] components = Writer.rows
      (RecordComponent.write pool) components :=
    Writer.gathered_eq_rows (fun done => by rw [RecordComponent.writeAll]) fun done c rest => by
      rw [RecordComponent.writeAll]
  rw [write, h, Writer.table]

/-- The contents of every kind are read back, given those of code and of records. -/
theorem covers_read (kind : Kind) (houter : site.location ≠ .code) :
    (read (site.surroundings pool options) kind).Covers fun a bytes =>
      a.kind? = some kind ∧ a.write pool = .ok bytes ∧ a.DeeplyAdmitted pool options site := by
  unfold read
  split
  next =>
    exact covers_make (Code.inverts_read pool options site).covers (fun _ => kind?_eq_some)
      (fun _ => by rw [write]) fun body => deeplyAdmitted_code
  next =>
    exact covers_make (Inverts.table fun _ => RecordComponent.inverts_read pool options site).covers
      (fun _ => kind?_eq_some) write_record fun components => deeplyAdmitted_record
  next hcode hrecord =>
    refine (covers_readLeaf _ (fun h => absurd h houter) hcode hrecord).congr fun a bytes => ?_
    refine and_congr_right fun hkind => and_congr_right fun _ => (deeplyAdmitted_leaf ?_ ?_).symm
    · simpa [hkind] using hcode
    · simpa [hkind] using hrecord

/-- An attribute of a class, a field or a method is read back, with all attributes in it. -/
theorem inverts_readNamed (pool : ConstantPool) (options : ReadOptions) (site : Site)
    (houter : site.location ≠ .code) :
    (NamedAttribute.read (site.surroundings pool options)
      (read (site.surroundings pool options))).Inverts (NamedAttribute.write pool) fun a =>
        AllAdmitted pool options (a.sites site) := by
  refine (NamedAttribute.inverts_read (P := DeeplyAdmitted pool options site) (fun body => ?_)
    fun kind _ => covers_read kind houter).congr fun a bytes => and_congr_right fun _ => ?_
  · exact (deeplyAdmitted_leaf (by simp [kind?]) (by simp [kind?])).2 (by simp [admittedBy_iff])
  · simp only [AllAdmitted, NamedAttribute.sites_eq, List.forall_mem_cons]
    constructor
    · rintro ⟨hname, hregistered, h⟩
      exact ⟨⟨hname, hregistered, h.content, h.code⟩, h.sites⟩
    · rintro ⟨h, hsites⟩
      exact ⟨h.name, h.registered, h.content, h.code, hsites⟩

/-- The attributes of a class, a field or a method are read back. -/
theorem inverts_readList (pool : ConstantPool) (options : ReadOptions) (site : Site)
    (houter : site.location ≠ .code) :
    (readList (site.surroundings pool options)).Inverts (writeList pool) fun attributes =>
      AllAdmitted pool options (NamedAttribute.allSites site attributes) := by
  rw [writeList_eq_table]
  refine (Inverts.table fun _ => inverts_readNamed pool options site houter).congr
    fun attributes bytes => and_congr_right fun _ => ?_
  simp only [NamedAttribute.allSites_eq_flatMap, AllAdmitted, List.forall_mem_flatMap]

end Attribute

end ClassFormat
