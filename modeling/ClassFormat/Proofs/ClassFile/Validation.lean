import Mathlib
import ClassFormat.Proofs.ClassFile.Soundness
import ClassFormat.Proofs.ConstantPool.Alike
import ClassFormat.Proofs.Instruction.Relocation
import ClassFormat.Proofs.List

/-!
# What validation finds

A class file is validated by reading what is written for it, so only what the reader decodes is
checked. This is everything but the contents of attributes that stand where attributes of their
kind may not: these are written like any others, but are kept as they are when they are read.

* `NamedAttribute.Placed`, `NamedAttribute.Visible`: an attribute that is decoded again;
* `NamedAttribute.Echoes`, `ClassFile.Echoes`: what is written, and what is read in its place;
* `ClassFile.validated_of_validate`: what is there in a class file that is found to be valid;
* `ClassFile.not_resolves_of_validate`: a reference that does not resolve and is not found.
-/

namespace ClassFormat

open Reader Writer

variable {pool pool' : ConstantPool} {bytes : Bytes}

/-! ### Instructions -/

namespace Instruction

/-- What instructions refer to is there, if it is for those that are decoded from their bytes. -/
theorem resolves_of_encode {instructions decoded : List Instruction}
    (hlength : bytes.length < 2 ^ 32) (hx : encode instructions = .ok bytes)
    (hy : encode decoded = .ok bytes) (hrec : Recorded decoded)
    (hall : ∀ i ∈ decoded, i.operands.Admissible ∧ ∀ r ∈ i.references, r.Resolves pool) :
    ∀ i ∈ instructions, ∀ r ∈ i.references, r.Resolves pool := by
  have hstart : (Cursor.start bytes).rest = bytes ++ [] := (List.append_nil bytes).symm
  obtain ⟨cursor, hdec, -⟩ := (inverts_decode pool hlength).complete ⟨rfl, hy, hrec, hall⟩ hstart
  obtain ⟨placed, -, hrel⟩ := relocated_decode hx hstart hdec
  intro i hi
  obtain ⟨k, hk, rfl⟩ := List.getElem_of_mem hi
  obtain ⟨hop, hsettled, -⟩ := hrel.same k hk
  rw [← references_eq hop hsettled]
  exact (hall _ (List.getElem_mem _)).2

end Instruction

/-! ### Attributes and what is read in their place -/

namespace NamedAttribute

/-- The attributes are written, each with its own pool, under the same name and as the same body. -/
structure Echoes (pool pool' : ConstantPool) (a b : NamedAttribute) : Prop where
  nameIndex : b.nameIndex = a.nameIndex
  named : checkName pool a = .ok ()
  named' : checkName pool' b = .ok ()
  body : ∃ body, a.content.write pool = .ok body ∧ b.content.write pool' = .ok body

/-- What is read in the place of an attribute echoes it. -/
theorem identifies (a : NamedAttribute) :
    Identifies (write pool) (write pool') (Echoes pool pool') a := by
  intro b x y s t hx hy he
  obtain ⟨hname, body, hbody, hlength, rfl⟩ := write_eq_ok.1 hx
  obtain ⟨hname', body', hbody', hlength', rfl⟩ := write_eq_ok.1 hy
  simp only [List.append_assoc, u2_append_inj, u4_append_inj] at he
  obtain ⟨hindex, hcount, he⟩ := he
  have hcounts := congrArg UInt32.toNat hcount
  rw [UInt32.toNat_ofNat_of_lt' hlength, UInt32.toNat_ofNat_of_lt' hlength'] at hcounts
  obtain ⟨rfl, rfl⟩ := List.append_inj he hcounts
  exact ⟨⟨hindex.symm, hname, hname', body, hbody, hbody'⟩, rfl⟩

/-- What is read in the place of a list of attributes echoes it, one by one. -/
theorem identifies_writeList (attributes : List NamedAttribute) :
    Identifies (Attribute.writeList pool) (Attribute.writeList pool')
      (List.Forall₂ (Echoes pool pool')) attributes := by
  rw [Attribute.writeList_eq_table, Attribute.writeList_eq_table]
  exact Identifies.table fun a _ => a.identifies

/-- The attribute stands where attributes of its kind may stand. -/
def Placed (location : Location) (a : NamedAttribute) : Prop :=
  ∀ kind, a.content.kind? = some kind → location ∈ kind.locations

/-- An attribute in a list, or in attributes of the list that stand where they may, at any depth. -/
inductive Visible : Site → List NamedAttribute → Site × NamedAttribute → Prop
  | listed {site : Site} {attributes : List NamedAttribute} {a : NamedAttribute}
    (ha : a ∈ attributes) : Visible site attributes (site, a)
  | code {site : Site} {attributes : List NamedAttribute} {nameIndex : UInt16} {body : Code}
    {p : Site × NamedAttribute} (ha : ⟨nameIndex, .code body⟩ ∈ attributes)
    (hplaced : Placed site.location ⟨nameIndex, .code body⟩)
    (hp : Visible (site.inCode body) body.attributes p) : Visible site attributes p
  | component {site : Site} {attributes : List NamedAttribute} {nameIndex : UInt16}
    {components : List RecordComponent} {component : RecordComponent} {p : Site × NamedAttribute}
    (ha : ⟨nameIndex, .record components⟩ ∈ attributes)
    (hplaced : Placed site.location ⟨nameIndex, .record components⟩) (hc : component ∈ components)
    (hp : Visible site.inComponent component.attributes p) : Visible site attributes p

variable {a b : NamedAttribute} {location : Location}

/-- What is read in place of an attribute that stands where it may is of the same kind. -/
theorem Echoes.kind?_eq (h : Echoes pool pool' a b) (halike : pool.Alike pool')
    (hplaced : a.Placed location) (hregistered : b.Registered pool' location)
    {kind : Attribute.Kind} (hkind : a.content.kind? = some kind) :
    b.content.kind? = some kind := by
  have hname := checkName_eq_ok.1 h.named
  rw [hkind] at hname
  -- The name of a kind is a joined text, so it is still there.
  have hname' := halike.text (Text.joined_ofString kind.name) hname
  rw [← h.nameIndex] at hname'
  rw [Registered] at hregistered
  cases hkind' : b.content.kind? with
  | none =>
    rw [hkind'] at hregistered
    exact absurd (hplaced kind hkind) (hregistered kind (ConstantPool.holdsText_iff.2 hname'))
  | some kind' =>
    have hchecked := checkName_eq_ok.1 h.named'
    rw [hkind', hname'] at hchecked
    have htext : Text.ofString kind.name = Text.ofString kind'.name := by simpa using hchecked
    exact (Attribute.Kind.ofName?_eq_some.2 htext).symm.trans (Attribute.Kind.ofName?_eq_some.2 rfl)

end NamedAttribute

/-- The bytes of code tell its handlers, its attributes, and the bytes of its instructions. -/
theorem Code.identifies_parts {code code' : Code} (hx : code.write pool = .ok bytes)
    (hy : code'.write pool' = .ok bytes) : code.handlers = code'.handlers ∧
      List.Forall₂ (NamedAttribute.Echoes pool pool') code.attributes code'.attributes ∧
        ∃ x, x.length < 2 ^ 32 ∧ Instruction.encode code.instructions = .ok x ∧
          Instruction.encode code'.instructions = .ok x := by
  obtain ⟨x, henc, hcheck, h, hh, z, hz, rfl⟩ := write_eq_ok.1 hx
  obtain ⟨x', henc', hcheck', h', hh', z', hz', he⟩ := write_eq_ok.1 hy
  have hlt {x : Bytes} (h : checkLength x.length = .ok ()) : x.length < 2 ^ 32 :=
    lt_of_le_of_lt (checkLength_eq_ok.1 h).2 (by decide)
  simp only [u2_append_inj, u4_append_inj] at he
  obtain ⟨-, -, hcount, he⟩ := he
  have hcounts := congrArg UInt32.toNat hcount
  rw [UInt32.toNat_ofNat_of_lt' (hlt hcheck), UInt32.toNat_ofNat_of_lt' (hlt hcheck')] at hcounts
  obtain ⟨rfl, hrest⟩ := List.append_inj he hcounts
  obtain ⟨hhandlers, rfl⟩ := ExceptionHandler.unambiguous.table _ hh hh' hrest
  exact ⟨hhandlers, (NamedAttribute.identifies_writeList _ (s := []) hz hz' rfl).1, x,
    hlt hcheck, henc, henc'⟩

/-- A component, and what is read in its place. -/
structure RecordComponent.Echoes (pool pool' : ConstantPool) (a b : RecordComponent) : Prop where
  references : a.references = b.references
  attributes : List.Forall₂ (NamedAttribute.Echoes pool pool') a.attributes b.attributes

/-- What is read in the place of a component echoes it. -/
theorem RecordComponent.identifies (a : RecordComponent) :
    Identifies (write pool) (write pool') (Echoes pool pool') a := by
  obtain ⟨nameIndex, descriptorIndex, attributes⟩ := a
  rintro ⟨nameIndex', descriptorIndex', attributes'⟩ x y s t hx hy he
  obtain ⟨z, hz, rfl⟩ := write_eq_ok.1 hx
  obtain ⟨z', hz', rfl⟩ := write_eq_ok.1 hy
  simp only [List.append_assoc, u2_append_inj] at he
  obtain ⟨rfl, rfl, he⟩ := he
  obtain ⟨hall, rfl⟩ := NamedAttribute.identifies_writeList _ hz hz' he
  exact ⟨⟨rfl, hall⟩, rfl⟩

/-- The components of a record, and what is read in their place. -/
theorem Attribute.identifies_record {components components' : List RecordComponent}
    (hx : (record components).write pool = .ok bytes)
    (hy : (record components').write pool' = .ok bytes) :
    List.Forall₂ (RecordComponent.Echoes pool pool') components components' := by
  rw [write_record] at hx hy
  exact (Identifies.table (fun a _ => a.identifies) (s := []) hx hy rfl).1

namespace NamedAttribute

variable {options : ReadOptions} {site site' : Site} {a b : NamedAttribute}

/-- In the place of an attribute that stands where it may, one of the same kind is read. -/
theorem exists_echo {attributes attributes' : List NamedAttribute} (ha : a ∈ attributes)
    (halike : pool.Alike pool') (hechoes : List.Forall₂ (Echoes pool pool') attributes attributes')
    (hadmitted : AllAdmitted pool' options (allSites site' attributes'))
    (hplaced : a.Placed site'.location) {kind : Attribute.Kind}
    (hkind : a.content.kind? = some kind) :
    ∃ b ∈ attributes', Echoes pool pool' a b ∧ b.content.kind? = some kind := by
  obtain ⟨b, hb, hecho⟩ := hechoes.exists_mem ha
  exact ⟨b, hb, hecho, hecho.kind?_eq halike hplaced
    (hadmitted _ (mem_allSites hb)).registered hkind⟩

/-- In the place of an attribute that is visible, another one is read. -/
theorem Visible.exists_echo {attributes attributes' : List NamedAttribute}
    {p : Site × NamedAttribute} (h : Visible site attributes p) (halike : pool.Alike pool')
    (hechoes : List.Forall₂ (Echoes pool pool') attributes attributes')
    (hadmitted : AllAdmitted pool' options (allSites site' attributes'))
    (hsite : site'.location = site.location) :
    ∃ q ∈ allSites site' attributes', q.1.location = p.1.location ∧ Echoes pool pool' p.2 q.2 := by
  -- Code is read in the place of code, and its attributes in the place of those of that code. So it
  -- is with components.
  induction h generalizing site' attributes' with
  | listed ha =>
    obtain ⟨b, hb, hecho⟩ := hechoes.exists_mem ha
    exact ⟨(site', b), mem_allSites hb, hsite, hecho⟩
  | @code site attributes nameIndex body p ha hplaced _ ih =>
    obtain ⟨⟨nameIndex', content⟩, hb, hecho, hkind⟩ :=
      NamedAttribute.exists_echo ha halike hechoes hadmitted (hsite ▸ hplaced) rfl
    obtain ⟨body', rfl⟩ := Attribute.kind?_eq_some.1 hkind
    obtain ⟨bytes, hx, hy⟩ := hecho.body
    rw [Attribute.write] at hx hy
    obtain ⟨-, hall, -⟩ := Code.identifies_parts hx hy
    have hwithin : ∀ q ∈ allSites (site'.inCode body') body'.attributes,
        q ∈ allSites site' attributes' :=
      fun q hq => (Within.code hb (within_of_mem _ hq)).mem_allSites
    obtain ⟨q, hq, h⟩ := ih hall (fun q hq => hadmitted q (hwithin q hq)) rfl
    exact ⟨q, hwithin q hq, h⟩
  | @component site attributes nameIndex components component p ha hplaced hc _ ih =>
    obtain ⟨⟨nameIndex', content⟩, hb, hecho, hkind⟩ :=
      NamedAttribute.exists_echo ha halike hechoes hadmitted (hsite ▸ hplaced) rfl
    obtain ⟨components', rfl⟩ := Attribute.kind?_eq_some.1 hkind
    obtain ⟨bytes, hx, hy⟩ := hecho.body
    obtain ⟨component', hc', hcomponent⟩ := (Attribute.identifies_record hx hy).exists_mem hc
    have hwithin : ∀ q ∈ allSites site'.inComponent component'.attributes,
        q ∈ allSites site' attributes' :=
      fun q hq => (Within.component hb hc' (within_of_mem _ hq)).mem_allSites
    obtain ⟨q, hq, h⟩ := ih hcomponent.attributes (fun q hq => hadmitted q (hwithin q hq)) rfl
    exact ⟨q, hwithin q hq, h⟩

/-- What code refers to is there, if it is for the code that is read in its place. -/
theorem resolves_code {body body' : Code} {verify : Bool} (halike : pool.Alike pool')
    (hx : body.write pool = .ok bytes) (hy : body'.write pool' = .ok bytes)
    (hadmitted : body'.AdmittedBy verify) (hrefs : ∀ r ∈ body'.references, r.Resolves pool') :
    ∀ r ∈ body.references, r.Resolves pool := by
  obtain ⟨hhandlers, -, x, hlength, henc, henc'⟩ := Code.identifies_parts hx hy
  rw [Code.references, List.forall_mem_append, List.forall_mem_flatMap] at hrefs
  rw [Code.references, List.forall_mem_append, List.forall_mem_flatMap, hhandlers]
  simp only [← halike.resolves_iff]
  refine ⟨?_, hrefs.2⟩
  exact Instruction.resolves_of_encode hlength henc henc' hadmitted.recorded
    fun i hi => ⟨hadmitted.admissible i hi, hrefs.1 i hi⟩

/-- What components refer to is there, if it is for those that are read in their place. -/
theorem resolves_record {components components' : List RecordComponent} (halike : pool.Alike pool')
    (hechoes : List.Forall₂ (RecordComponent.Echoes pool pool') components components')
    (hrefs : ∀ r ∈ (Attribute.record components').references, r.Resolves pool') :
    ∀ r ∈ (Attribute.record components).references, r.Resolves pool := by
  rw [Attribute.references, List.forall_mem_flatMap] at hrefs ⊢
  intro component hc
  obtain ⟨component', hc', hecho⟩ := hechoes.exists_mem hc
  simp only [hecho.references, ← halike.resolves_iff]
  exact hrefs component' hc'

/-- What an attribute that stands where it may refers to is there, if it is for what is read in its
    place. -/
theorem Echoes.resolves {s : Surroundings} (h : Echoes pool s.pool a b) (halike : pool.Alike s.pool)
    (hplaced : a.Placed s.location) (hadmitted : b.AdmittedBy s) :
    ∀ r ∈ a.content.references, r.Resolves pool := by
  obtain ⟨bytes, hx, hy⟩ := h.body
  have hrefs := hadmitted.content.references
  cases hkind : a.content.kind? with
  | none =>
    obtain ⟨content, hcontent⟩ := Attribute.kind?_eq_none.1 hkind
    simp [hcontent]
  | some kind =>
    have hkind' := h.kind?_eq halike hplaced hadmitted.registered hkind
    by_cases hcode : kind = .code
    · subst hcode
      obtain ⟨body, hbody⟩ := Attribute.kind?_eq_some.1 hkind
      obtain ⟨body', hbody'⟩ := Attribute.kind?_eq_some.1 hkind'
      rw [hbody, Attribute.write] at hx
      rw [hbody', Attribute.write] at hy
      rw [hbody', Attribute.references] at hrefs
      rw [hbody, Attribute.references]
      exact resolves_code halike hx hy (hadmitted.code body' hbody') hrefs
    by_cases hrecord : kind = .record
    · subst hrecord
      obtain ⟨components, hcomponents⟩ := Attribute.kind?_eq_some.1 hkind
      obtain ⟨components', hcomponents'⟩ := Attribute.kind?_eq_some.1 hkind'
      rw [hcomponents] at hx ⊢
      rw [hcomponents'] at hy hrefs
      exact resolves_record halike (Attribute.identifies_record hx hy) hrefs
    · -- The contents of all other kinds are read as they are.
      rw [← Attribute.eq_of_write hcode hrecord hkind hkind' hx hy] at hrefs
      simpa only [← halike.resolves_iff] using hrefs

/-- All attributes at any depth are written, so each has the name that it is written under. -/
theorem Within.named {attributes : List NamedAttribute} {p : Site × NamedAttribute}
    (h : Within site attributes p) (hwrite : Attribute.writeList pool attributes = .ok bytes) :
    checkName pool p.2 = .ok () := by
  have hwritten {attributes : List NamedAttribute} {bytes : Bytes}
      (h : Attribute.writeList pool attributes = .ok bytes) {a : NamedAttribute}
      (ha : a ∈ attributes) : checkName pool a = .ok () ∧ ∃ body,
      a.content.write pool = .ok body := by
    rw [Attribute.writeList_eq_table] at h
    obtain ⟨x, hx⟩ := exists_of_table h a ha
    obtain ⟨hname, body, hbody, -⟩ := write_eq_ok.1 hx
    exact ⟨hname, body, hbody⟩
  induction h generalizing bytes with
  | listed ha => exact (hwritten hwrite ha).1
  | code ha _ ih =>
    obtain ⟨-, body, hbody⟩ := hwritten hwrite ha
    rw [Attribute.write] at hbody
    obtain ⟨x, -, -, y, -, z, hz, -⟩ := Code.write_eq_ok.1 hbody
    exact ih hz
  | component ha hc _ ih =>
    obtain ⟨-, body, hbody⟩ := hwritten hwrite ha
    rw [Attribute.write_record] at hbody
    obtain ⟨x, hx⟩ := exists_of_table hbody _ hc
    obtain ⟨z, hz, -⟩ := RecordComponent.write_eq_ok.1 hx
    exact ih hz

/-- An attribute is written only if its name is a text. -/
theorem refers_of_checkName (hpool : pool.WellFormed) (h : checkName pool a = .ok ()) :
    pool.Refers a.nameIndex [.utf8] := by
  rw [checkName_eq_ok] at h
  cases hkind : a.content.kind? with
  | none =>
    rw [hkind] at h
    exact h
  | some kind =>
    rw [hkind] at h
    refine ⟨fun h0 => ?_, _, h, List.mem_singleton.2 rfl⟩
    rw [h0, hpool.get?_zero] at h
    cases h

end NamedAttribute

/-! ### Members -/

/-- A field or a method, and what is read in its place. -/
structure Member.Echoes (pool pool' : ConstantPool) (a b : Member) : Prop where
  references : a.references = b.references
  attributes : List.Forall₂ (NamedAttribute.Echoes pool pool') a.attributes b.attributes

/-- What is read in the place of a field or a method echoes it. -/
theorem Member.identifies (a : Member) :
    Identifies (write pool) (write pool') (Echoes pool pool') a := by
  obtain ⟨accessFlags, nameIndex, descriptorIndex, attributes⟩ := a
  rintro ⟨accessFlags', nameIndex', descriptorIndex', attributes'⟩ x y s t hx hy he
  obtain ⟨z, hz, rfl⟩ := write_eq_ok.1 hx
  obtain ⟨z', hz', rfl⟩ := write_eq_ok.1 hy
  simp only [List.append_assoc, u2_append_inj] at he
  obtain ⟨rfl, rfl, rfl, he⟩ := he
  obtain ⟨hall, rfl⟩ := NamedAttribute.identifies_writeList _ hz hz' he
  exact ⟨⟨rfl, hall⟩, rfl⟩

/-! ### Class files -/

namespace ClassFile

variable {c c' : ClassFile} {options : ReadOptions}

/-- A class file, and what is read in its place. -/
structure Echoes (c c' : ClassFile) : Prop where
  pool : c.pool.Alike c'.pool
  references : c.ownReferences = c'.ownReferences
  fields : List.Forall₂ (Member.Echoes c.pool c'.pool) c.fields c'.fields
  methods : List.Forall₂ (Member.Echoes c.pool c'.pool) c.methods c'.methods
  attributes : List.Forall₂ (NamedAttribute.Echoes c.pool c'.pool) c.attributes c'.attributes

/-- What is read from what is written for a class file echoes it. -/
theorem echoes_of_ofBytes (hpool : c.pool.Built) (hwrite : c.toBytes = .ok bytes)
    (hread : ofBytes options bytes = .ok c') : c.Echoes c' := by
  obtain ⟨x, hx, y, hy, rfl⟩ := toBytes_eq_ok.1 hwrite
  obtain ⟨x', y', hspelled, -, hy', -, he⟩ := ofBytes_eq_ok.1 hread
  simp only [head, List.append_assoc, u4_append_inj, u2_append_inj] at he
  obtain ⟨-, -, -, he⟩ := he
  obtain ⟨halike, rfl⟩ := hpool.wellFormed.alike_of_spelled hx hspelled he
  obtain ⟨_, h₁, _, h₂, _, h₃, _, h₄, rfl⟩ := body_eq_ok.1 hy
  obtain ⟨_, h₁', _, h₂', _, h₃', _, h₄', he⟩ := body_eq_ok.1 hy'
  simp only [u2_append_inj] at he
  obtain ⟨-, hthis, hsuper, he⟩ := he
  obtain ⟨hinterfaces, he⟩ := unambiguous_indices _ h₁ h₁' he
  obtain ⟨hfields, he⟩ := Identifies.table (fun m _ => m.identifies) h₂ h₂' he
  obtain ⟨hmethods, rfl⟩ := Identifies.table (fun m _ => m.identifies) h₃ h₃' he
  obtain ⟨hattributes, -⟩ := NamedAttribute.identifies_writeList _ (s := []) h₄ h₄' rfl
  exact ⟨halike, by rw [ownReferences, ownReferences, hthis, hsuper, hinterfaces], hfields,
    hmethods, hattributes⟩

/-- An attribute of the class or of a member, in no attribute that stands where it may not. -/
def Visible (c : ClassFile) (p : Site × NamedAttribute) : Prop :=
  (∃ m ∈ c.fields, NamedAttribute.Visible (m.site .field c.interfaces.length) m.attributes p) ∨
    (∃ m ∈ c.methods, NamedAttribute.Visible (m.site .method c.interfaces.length) m.attributes p) ∨
      NamedAttribute.Visible c.site c.attributes p

/-- All that is referred to is there, other than by what is in a misplaced attribute. -/
structure Validated (c : ClassFile) : Prop where
  references : ∀ r ∈ c.ownReferences, r.Resolves c.pool
  members : ∀ m ∈ c.fields ++ c.methods, ∀ r ∈ m.references, r.Resolves c.pool
  /-- The name of each attribute is there, also of those that are misplaced. -/
  names : ∀ p ∈ c.sites, c.pool.Refers p.2.nameIndex [.utf8]
  contents : ∀ p, c.Visible p → p.2.Placed p.1.location →
    ∀ r ∈ p.2.content.references, r.Resolves c.pool

/-- A class file is valid if it can be written and what is written can be read. -/
theorem validate_eq_ok :
    c.validate = .ok () ↔ ∃ bytes c', c.toBytes = .ok bytes ∧ ofBytes {} bytes = .ok c' := by
  simp only [validate, bind_eq_ok, pure_eq_ok]
  constructor
  · rintro ⟨bytes, hwrite, c', hread, -⟩
    exact ⟨bytes, c', hwrite, hread⟩
  · rintro ⟨bytes, c', hwrite, hread⟩
    exact ⟨bytes, hwrite, c', hread, trivial⟩

/-- The names of all attributes of a class file that is written are there. -/
theorem refers_of_toBytes (hpool : c.pool.Built) (hwrite : c.toBytes = .ok bytes) :
    ∀ p ∈ c.sites, c.pool.Refers p.2.nameIndex [.utf8] := by
  obtain ⟨-, -, y, hy, -⟩ := toBytes_eq_ok.1 hwrite
  obtain ⟨-, -, _, hfields, _, hmethods, _, hattributes, -⟩ := body_eq_ok.1 hy
  have hlist {site : Site} {attributes : List NamedAttribute} {z : Bytes}
      (hz : Attribute.writeList c.pool attributes = .ok z) :
      ∀ p ∈ NamedAttribute.allSites site attributes, c.pool.Refers p.2.nameIndex [.utf8] :=
      fun p hp =>
    NamedAttribute.refers_of_checkName hpool.wellFormed
    ((NamedAttribute.within_of_mem _ hp).named hz)
  have hmembers {members : List Member} {z : Bytes} (hz : Writer.table (Member.write c.pool)
      members = .ok z) {m : Member} (hm : m ∈ members) : ∃ z,
      Attribute.writeList c.pool m.attributes = .ok z := by
    obtain ⟨x, hx⟩ := exists_of_table hz m hm
    obtain ⟨z, hz, -⟩ := Member.write_eq_ok.1 hx
    exact ⟨z, hz⟩
  refine forall_mem_sites.2 ⟨fun m hm => ?_, fun m hm => ?_, hlist hattributes⟩
  · obtain ⟨z, hz⟩ := hmembers hfields hm
    exact hlist hz
  · obtain ⟨z, hz⟩ := hmembers hmethods hm
    exact hlist hz

/-- What a class file refers to is there if what is read in its place is admitted. -/
theorem Echoes.contents (h : c.Echoes c') (hadmitted : c'.Admitted options)
    {p : Site × NamedAttribute} (hp : c.Visible p) (hplaced : p.2.Placed p.1.location) :
    ∀ r ∈ p.2.content.references, r.Resolves c.pool := by
  have hlist {site site' : Site} {attributes attributes' : List NamedAttribute}
      (hp : NamedAttribute.Visible site attributes p)
      (hechoes : List.Forall₂ (NamedAttribute.Echoes c.pool c'.pool) attributes attributes')
      (hadmitted : AllAdmitted c'.pool options (NamedAttribute.allSites site' attributes'))
      (hsite : site'.location = site.location) :
      ∀ r ∈ p.2.content.references, r.Resolves c.pool := by
    obtain ⟨q, hq, hlocation, hecho⟩ := hp.exists_echo h.pool hechoes hadmitted hsite
    rw [← hlocation] at hplaced
    exact NamedAttribute.Echoes.resolves (s := q.1.surroundings c'.pool options) hecho h.pool
      hplaced (hadmitted q hq)
  rcases hp with ⟨m, hm, hp⟩ | ⟨m, hm, hp⟩ | hp
  · obtain ⟨m', hm', hecho⟩ := h.fields.exists_mem hm
    exact hlist hp hecho.attributes (hadmitted.fields m' hm').sites rfl
  · obtain ⟨m', hm', hecho⟩ := h.methods.exists_mem hm
    exact hlist hp hecho.attributes (hadmitted.methods m' hm').sites rfl
  · exact hlist hp h.attributes hadmitted.sites rfl

/-- If a class file is found to be valid, then all that it refers to is there, other than by what
    is in an attribute that stands where attributes of its kind may not. -/
theorem validated_of_validate (hpool : c.pool.Built) (h : c.validate = .ok ()) : c.Validated := by
  obtain ⟨bytes, c', hwrite, hread⟩ := validate_eq_ok.1 h
  have hechoes := echoes_of_ofBytes hpool hwrite hread
  obtain ⟨-, -, -, -, -, hadmitted, -⟩ := ofBytes_eq_ok.1 hread
  refine ⟨?_, fun m hm => ?_, refers_of_toBytes hpool hwrite, fun p => hechoes.contents hadmitted⟩
  · simp only [hechoes.references, ← hechoes.pool.resolves_iff]
    exact hadmitted.references
  · simp only [← hechoes.pool.resolves_iff]
    rcases List.mem_append.1 hm with hm | hm
    · obtain ⟨m', hm', hecho⟩ := hechoes.fields.exists_mem hm
      rw [hecho.references]
      exact (hadmitted.fields m' hm').references
    · obtain ⟨m', hm', hecho⟩ := hechoes.methods.exists_mem hm
      rw [hecho.references]
      exact (hadmitted.methods m' hm').references

/-- The class is valid, and so all that it refers to is there. -/
theorem validated_of_validate_thrower : thrower.validate = .ok () ∧ thrower.Validated := by
  have hvalid : thrower.validate = .ok () :=
    validate_eq_ok.2 ⟨_, _, toBytes_thrower, ofBytes_thrower⟩
  exact ⟨hvalid, validated_of_validate built_thrower hvalid⟩

/-- A class with the constant of a field among its own attributes, which refers to nothing. -/
def misplaced : ClassFile :=
  { empty with
    pool := ⟨#[none, some (.ofString "A"), some (.classref 1), some (.ofString "ConstantValue")]⟩
    thisClass := 2
    attributes := [⟨3, .constantValue 999⟩] }

/-- A reference in a misplaced attribute that does not resolve is not found. -/
theorem not_resolves_of_validate : ¬∀ c : ClassFile, c.pool.Built → c.validate = .ok () →
    ∀ r ∈ c.references, r.Resolves c.pool := by
  intro h
  have hbuilt : misplaced.pool.Built :=
    .push (.push (.push .empty (c := .ofString "A") (by rfl)) (c := .classref 1) (by rfl))
      (c := .ofString "ConstantValue") (by rfl)
  have hvalid : misplaced.validate = .ok () := by cbv
  have hdangling := h misplaced hbuilt hvalid (.required 999 Constant.Kind.fieldValue) (by
    simp [references, sites, misplaced, NamedAttribute.allSites_eq_flatMap, NamedAttribute.sites_eq,
      NamedAttribute.references])
  revert hdangling
  decide

end ClassFile

end ClassFormat
