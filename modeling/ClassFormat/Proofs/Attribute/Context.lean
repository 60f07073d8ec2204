import Mathlib
import ClassFormat.Proofs.Attribute.Site
import ClassFormat.Proofs.Failing

/-!
# What is around a list of attributes

A list of attributes may be that of code or of a component, and these are in attributes of another
list. What is around it is a context, which another list may be put into in its place.

* `Enclosure`: what is written around some bytes, the lengths of the attributes around them
  included, which are the only bytes that depend on what is enclosed;
* `Attribute.exists_listed`: an attribute of a list is written as an enclosure of its body;
* `Attribute.Context`: what is around a list of attributes in another list;
* `Attribute.Context.exists_enclosure`: contexts are written as enclosures;
* `Attribute.Substitutes`: whatever is checked of one list holds of the other. Contexts preserve
  that (`Attribute.Substitutes.fill`).
-/

namespace ClassFormat

/-! ### Bytes around bytes -/

/-- What is written around some bytes. -/
inductive Enclosure where
  | bare
  | between (before after : Bytes) (inner : Enclosure)
  /-- The length of an attribute, in front of its body. -/
  | measured (inner : Enclosure)

namespace Enclosure

/-- The bytes with what is around them. -/
def fill : Enclosure → Bytes → Bytes
  | bare, x => x
  | between before after inner, x => before ++ (inner.fill x ++ after)
  | measured inner, x => Writer.u4 (UInt32.ofNat (inner.fill x).length) ++ inner.fill x

/-- The number of lengths around the bytes. -/
def lengths : Enclosure → Nat
  | bare => 0
  | between _ _ inner => inner.lengths
  | measured inner => inner.lengths + 1

/-- The lengths of all attributes around the bytes fit into 32 bits. -/
def Fits : Enclosure → Bytes → Prop
  | bare, _ => True
  | between _ _ inner, x => inner.Fits x
  | measured inner, x => inner.Fits x ∧ (inner.fill x).length < 2 ^ 32

/-- What `outer` writes is what `inner` writes, and the enclosure around it. -/
def Encloses {α : Type} (e : Enclosure) (outer inner : α → Written) : Prop :=
  ∀ a out, outer a = .ok out ↔ ∃ x, inner a = .ok x ∧ e.Fits x ∧ out = e.fill x

variable {e : Enclosure} {x y : Bytes}

/-- Only the number of the enclosed bytes decides how many there are with what is around them. -/
theorem length_fill_congr (h : y.length = x.length) : (e.fill y).length = (e.fill x).length := by
  induction e with
  | bare => exact h
  | between before after inner ih => simp only [fill, List.length_append, ih]
  | measured inner ih => simp only [fill, List.length_append, Writer.length_u4, ih]

/-- Bytes of the same number fit alike. -/
theorem Fits.congr (h : e.Fits x) (hlength : y.length = x.length) : e.Fits y := by
  induction e with
  | bare => trivial
  | between before after inner ih => exact ih h
  | measured inner ih => exact ⟨ih h.1, length_fill_congr hlength ▸ h.2⟩

variable {α β : Type} {outer middle inner : α → Written} {pool : ConstantPool}

/-- What is written by itself has nothing around it. -/
theorem encloses_refl (inner : α → Written) : bare.Encloses inner inner := by
  intro a out
  simp [Fits, fill]

/-- Some bytes before and after belong to what is around. -/
theorem Encloses.between {before after : Bytes} (h : e.Encloses middle inner)
    (houter : ∀ a out, outer a = .ok out ↔ ∃ y, middle a = .ok y ∧ out = before ++ (y ++ after)) :
    (between before after e).Encloses outer inner := by
  intro a out
  rw [houter]
  constructor
  · rintro ⟨y, hy, rfl⟩
    obtain ⟨x, hx, hfits, rfl⟩ := (h a y).1 hy
    exact ⟨x, hx, hfits, rfl⟩
  · rintro ⟨x, hx, hfits, rfl⟩
    exact ⟨_, (h a _).2 ⟨x, hx, hfits, rfl⟩, rfl⟩

/-- One row of a table. -/
theorem Encloses.table {write : β → Written} {f : α → β} {front back : List β} {a : α} {out : Bytes}
    (h : e.Encloses (fun a => write (f a)) inner)
    (hwrite : Writer.table write (front ++ f a :: back) = .ok out) :
    ∃ before after, (Enclosure.between before after e).Encloses
      (fun a => Writer.table write (front ++ f a :: back)) inner := by
  obtain ⟨hcount, y, hy, -⟩ := Writer.table_eq_ok.1 hwrite
  obtain ⟨x, _, hx, ⟨row, z, -, hz, -⟩, -⟩ := (Spelling.each_append ..).1 hy
  simp only [List.length_append, List.length_cons] at hcount
  refine ⟨Writer.u2 (UInt16.ofNat (front.length + (back.length + 1))) ++ x, z,
    h.between fun a' out => ?_⟩
  simp only [Writer.table_eq_ok, Spelling.each_append, Spelling.each_cons, List.length_append,
    List.length_cons]
  constructor
  · rintro ⟨-, _, ⟨x', _, hx', ⟨row, z', hrow, hz', rfl⟩, rfl⟩, rfl⟩
    -- The rows before and after are the same, and so are their bytes.
    obtain rfl : x = x' :=
      Except.ok.inj ((Writer.rows_eq_ok.2 hx).symm.trans (Writer.rows_eq_ok.2 hx'))
    obtain rfl : z = z' :=
      Except.ok.inj ((Writer.rows_eq_ok.2 hz).symm.trans (Writer.rows_eq_ok.2 hz'))
    exact ⟨row, hrow, by simp only [List.append_assoc]⟩
  · rintro ⟨row, hrow, rfl⟩
    exact ⟨hcount, _, ⟨x, _, hx, ⟨row, z, hrow, hz, rfl⟩, rfl⟩, by simp only [List.append_assoc]⟩

/-- The body of an attribute. -/
theorem Encloses.attribute {nameIndex : UInt16} {g : α → Attribute}
    (h : e.Encloses (fun a => (g a).write pool) inner)
    (hcheck : ∀ a, NamedAttribute.checkName pool ⟨nameIndex, g a⟩ = .ok ()) :
    (Enclosure.between (Writer.u2 nameIndex) [] (measured e)).Encloses
      (fun a => NamedAttribute.write pool ⟨nameIndex, g a⟩) inner := by
  intro a out
  simp only [NamedAttribute.write_eq_ok, hcheck, true_and, Fits, fill, List.append_nil]
  constructor
  · rintro ⟨body, hbody, hlength, rfl⟩
    obtain ⟨x, hx, hfits, rfl⟩ := (h a body).1 hbody
    exact ⟨x, hx, ⟨hfits, hlength⟩, rfl⟩
  · rintro ⟨x, hx, ⟨hfits, hlength⟩, rfl⟩
    exact ⟨_, (h a _).2 ⟨x, hx, hfits, rfl⟩, hlength, rfl⟩

end Enclosure

namespace Attribute

variable {α : Type} {e : Enclosure} {pool : ConstantPool} {inner : α → Written} {g : α → Attribute}
  {a : α} {front back : List NamedAttribute} {nameIndex : UInt16} {content : Attribute}
  {out : Bytes}

/-- An attribute of a list that is written has the right name, and is written itself. -/
theorem exists_body (hwrite : writeList pool (front ++ ⟨nameIndex, content⟩ :: back) = .ok out) :
    NamedAttribute.checkName pool ⟨nameIndex, content⟩ = .ok () ∧
      ∃ body, content.write pool = .ok body := by
  rw [writeList_eq_table] at hwrite
  obtain ⟨_, hrow⟩ :=
    Writer.exists_of_table hwrite _ (List.mem_append_right _ (List.mem_cons_self ..))
  obtain ⟨hname, body, hbody, -⟩ := NamedAttribute.write_eq_ok.1 hrow
  exact ⟨hname, body, hbody⟩

/-- The body of one attribute of a list, which is of the same kind whatever is in it. -/
theorem exists_listed (h : e.Encloses (fun a => (g a).write pool) inner)
    (hkind : ∀ a', (g a').kind? = (g a).kind?)
    (hwrite : writeList pool (front ++ ⟨nameIndex, g a⟩ :: back) = .ok out) :
    ∃ e' : Enclosure, e'.lengths = e.lengths + 1 ∧
      e'.Encloses (fun a => writeList pool (front ++ ⟨nameIndex, g a⟩ :: back)) inner := by
  have hcheck (a' : α) : NamedAttribute.checkName pool ⟨nameIndex, g a'⟩ = .ok () := by
    rw [← (exists_body hwrite).1, NamedAttribute.checkName, NamedAttribute.checkName, hkind]
  rw [writeList_eq_table] at hwrite ⊢
  obtain ⟨before, after, htable⟩ := (h.attribute hcheck).table hwrite
  exact ⟨_, rfl, htable⟩

end Attribute

/-! ### Lists in lists -/

/-- What is written for code is what is before its attributes, and these. -/
theorem Code.exists_before {pool : ConstantPool} {code : Code} {out : Bytes}
    (h : code.write pool = .ok out) :
    ∃ before, ∀ attributes out, { code with attributes }.write pool = .ok out ↔
      ∃ z, Attribute.writeList pool attributes = .ok z ∧ out = before ++ (z ++ []) := by
  obtain ⟨x, hx, hlength, y, hy, -⟩ := Code.write_eq_ok.1 h
  refine ⟨Writer.u2 code.maxStack ++ (Writer.u2 code.maxLocals ++
    (Writer.u4 (UInt32.ofNat x.length) ++ (x ++ y))), fun attributes out => ?_⟩
  simp [Code.write_eq_ok, hx, hy, hlength]

namespace Attribute

/-- Attributes of other kinds than the one that is looked for do not matter. -/
theorem find?_insert {kind : Kind} {front back : List NamedAttribute} {a a' : NamedAttribute}
    (ha : a.content.kind? ≠ some kind) (ha' : a'.content.kind? ≠ some kind) :
    find? kind (front ++ a :: back) = find? kind (front ++ a' :: back) := by
  simp only [find?, List.map_append, List.map_cons, List.find?_append, List.find?_cons,
    decide_eq_false ha, decide_eq_false ha']

/-- What is around a list of attributes in another one. -/
inductive Context where
  | hole
  /-- The list is in that of code. -/
  | code (front : List NamedAttribute) (nameIndex : UInt16) (body : Code) (inner : Context)
    (back : List NamedAttribute)
  /-- The list is in that of a component. -/
  | component (front : List NamedAttribute) (nameIndex : UInt16) (above : List RecordComponent)
    (component : RecordComponent) (inner : Context) (below : List RecordComponent)
    (back : List NamedAttribute)

namespace Context

/-- A list of attributes with what is around it. -/
def fill : Context → List NamedAttribute → List NamedAttribute
  | hole, attributes => attributes
  | code front nameIndex body inner back, attributes =>
    front ++ ⟨nameIndex, .code { body with attributes := inner.fill attributes }⟩ :: back
  | component front nameIndex above row inner below back, attributes =>
    front ++ ⟨nameIndex, .record (above ++ { row with attributes := inner.fill attributes } ::
      below)⟩ :: back

/-- The number of attributes around a list. -/
def depth : Context → Nat
  | hole => 0
  | code _ _ _ inner _ => inner.depth + 1
  | component _ _ _ _ inner _ _ => inner.depth + 1

variable {α : Type} {e : Enclosure} {pool : ConstantPool} {f : α → List NamedAttribute} {a : α}
  {inner : α → Written} {out : Bytes}

/-- What is around a list is written as an enclosure of what is written for the list. -/
theorem exists_enclosure (context : Context) (h : e.Encloses (fun a => writeList pool (f a)) inner)
    (hwrite : writeList pool (context.fill (f a)) = .ok out) :
    ∃ e' : Enclosure, e'.lengths = e.lengths + context.depth ∧
      e'.Encloses (fun a => writeList pool (context.fill (f a))) inner := by
  induction context generalizing out with
  | hole => exact ⟨e, rfl, h⟩
  | code front nameIndex body context back ih =>
    obtain ⟨-, content, hcontent⟩ := exists_body hwrite
    rw [Attribute.write] at hcontent
    obtain ⟨before, hcode⟩ := Code.exists_before hcontent
    obtain ⟨z, hz, -⟩ := (hcode _ _).1 hcontent
    obtain ⟨e', hlengths, he'⟩ := ih hz
    have hbody : (Enclosure.between before [] e').Encloses
        (fun a => (Attribute.code { body with attributes := context.fill (f a) }).write pool)
            inner := by
      simp only [Attribute.write]
      exact he'.between fun a => hcode (context.fill (f a))
    obtain ⟨e'', hlengths', he''⟩ := exists_listed hbody (fun _ => rfl) hwrite
    exact ⟨e'', hlengths'.trans (congrArg (· + 1) hlengths), he''⟩
  | component front nameIndex above row context below back ih =>
    obtain ⟨-, content, hcontent⟩ := exists_body hwrite
    rw [Attribute.write_record] at hcontent
    obtain ⟨_, hrow⟩ :=
      Writer.exists_of_table hcontent _ (List.mem_append_right _ (List.mem_cons_self ..))
    obtain ⟨z, hz, -⟩ := RecordComponent.write_eq_ok.1 hrow
    obtain ⟨e', hlengths, he'⟩ := ih hz
    let head := Writer.u2 row.nameIndex ++ Writer.u2 row.descriptorIndex
    have hcomponent : (Enclosure.between head [] e').Encloses
        (fun a => RecordComponent.write pool { row with attributes := context.fill (f a) }) inner :=
      he'.between fun a out => by simp [RecordComponent.write_eq_ok, head]
    obtain ⟨before, after, hrows⟩ := hcomponent.table hcontent
    have hbody : (Enclosure.between before after (.between head [] e')).Encloses
        (fun a => (Attribute.record (above ++ { row with attributes := context.fill (f a) } ::
        below)).write pool) inner := by
      simp only [Attribute.write_record]
      exact hrows
    obtain ⟨e'', hlengths', he''⟩ := exists_listed hbody (fun _ => rfl) hwrite
    exact ⟨e'', hlengths'.trans (congrArg (· + 1) hlengths), he''⟩

/-- Of the kinds that hold no attributes themselves, the first attribute in a list is the same if it
    is the same in the list that is replaced. -/
theorem find?_fill {kind : Kind} (hcode : kind ≠ .code) (hrecord : kind ≠ .record)
    {l l' : List NamedAttribute} {context : Context}
    (h : context = hole → find? kind l = find? kind l') :
    find? kind (context.fill l) = find? kind (context.fill l') := by
  have hcode' : some Kind.code ≠ some kind := fun h => hcode (Option.some.inj h).symm
  have hrecord' : some Kind.record ≠ some kind := fun h => hrecord (Option.some.inj h).symm
  cases context with
  | hole => exact h rfl
  | code => exact find?_insert hcode' hcode'
  | component => exact find?_insert hrecord' hrecord'

end Context

/-- An attribute at any depth is in a list that has a context. -/
theorem exists_context {site : Site} {attributes : List NamedAttribute} {p : Site × NamedAttribute}
    (h : NamedAttribute.Within site attributes p) :
    ∃ (context : Context) (before after : List NamedAttribute),
      attributes = context.fill (before ++ p.2 :: after) := by
  induction h with
  | listed ha =>
    obtain ⟨before, after, h⟩ := List.append_of_mem ha
    exact ⟨.hole, before, after, h⟩
  | @code _ _ nameIndex body _ ha _ ih =>
    obtain ⟨front, back, h⟩ := List.append_of_mem ha
    obtain ⟨inner, before, after, hinner⟩ := ih
    refine ⟨.code front nameIndex body inner back, before, after, ?_⟩
    obtain ⟨_, _, _, _, _⟩ := body
    rw [Context.fill, ← hinner, h]
  | @component _ _ nameIndex _ row _ ha hc _ ih =>
    obtain ⟨front, back, h⟩ := List.append_of_mem ha
    obtain ⟨above, below, rfl⟩ := List.append_of_mem hc
    obtain ⟨inner, before, after, hinner⟩ := ih
    refine ⟨.component front nameIndex above row inner below back, before, after, ?_⟩
    obtain ⟨_, _, _⟩ := row
    rw [Context.fill, ← hinner, h]

/-! ### Lists in place of lists -/

/-- Whatever is checked of the attributes `l` holds of `l'`, wherever the attributes are. -/
structure Substitutes (l l' : List NamedAttribute) : Prop where
  admitted : ∀ {pool : ConstantPool} {options : ReadOptions} {site : Site},
    AllAdmitted pool options (NamedAttribute.allSites site l) →
      AllAdmitted pool options (NamedAttribute.allSites site l')
  annotated : ∀ a ∈ l', ∀ t ∈ a.content.annotatedTypes, ∃ b ∈ l, t ∈ b.content.annotatedTypes

end Attribute

namespace NamedAttribute

variable {pool : ConstantPool} {options : ReadOptions} {site : Site}
  {front back : List NamedAttribute} {a a' : NamedAttribute} {nameIndex : UInt16}

/-- A list with an attribute in the middle is admitted if all of its parts are. -/
theorem allAdmitted_insert : AllAdmitted pool options (allSites site (front ++ a :: back)) ↔
    AllAdmitted pool options (allSites site front) ∧
      (a.AdmittedBy (site.surroundings pool options) ∧
        AllAdmitted pool options (a.content.sites site)) ∧
      AllAdmitted pool options (allSites site back) := by
  simp only [AllAdmitted, allSites_eq_flatMap, List.flatMap_append, List.flatMap_cons, sites_eq,
    List.forall_mem_append, List.forall_mem_cons, and_assoc]

/-- The attributes of code are not among what the attributes of the code are checked against. -/
theorem allAdmitted_inCode {body : Code} {attributes list : List NamedAttribute} :
    AllAdmitted pool options (allSites (site.inCode { body with attributes }) list) ↔
      AllAdmitted pool options (allSites (site.inCode body) list) := by
  rw [allAdmitted_inner (Or.inl rfl), allAdmitted_inner (Or.inl rfl)]
  exact Iff.rfl

end NamedAttribute

namespace Attribute

open NamedAttribute

variable {front back l l' : List NamedAttribute} {nameIndex : UInt16} {s : Surroundings}

/-- What is checked of code is not checked of its attributes. -/
theorem admittedBy_code {body : Code} {attributes : List NamedAttribute}
    (h : NamedAttribute.AdmittedBy s ⟨nameIndex, .code body⟩) :
    NamedAttribute.AdmittedBy s ⟨nameIndex, .code { body with attributes }⟩ := by
  refine ⟨h.name, h.registered, ⟨h.content.references, h.content.offsets, trivial, by simp⟩, ?_⟩
  rintro _ ⟨⟩
  have hbody := h.code body rfl
  exact ⟨hbody.recorded, hbody.admissible, hbody.branches, hbody.handlers⟩

/-- What is checked of a record does not depend on the attributes of its components. -/
theorem admittedBy_component {above below : List RecordComponent} {row : RecordComponent}
    {attributes : List NamedAttribute}
    (h : NamedAttribute.AdmittedBy s ⟨nameIndex, .record (above ++ row :: below)⟩) :
    NamedAttribute.AdmittedBy s ⟨nameIndex,
      .record (above ++ { row with attributes } :: below)⟩ := by
  refine ⟨h.name, h.registered, ⟨?_, h.content.offsets, trivial, by simp⟩, nofun⟩
  have hrefs := h.content.references
  simp only [references, List.flatMap_append, List.flatMap_cons] at hrefs ⊢
  exact hrefs

/-- An attribute without type annotations adds none to a list. -/
theorem annotated_insert {a a' : NamedAttribute} (h : a'.content.annotatedTypes = []) :
    ∀ b ∈ front ++ a' :: back, ∀ t ∈ b.content.annotatedTypes,
      ∃ b' ∈ front ++ a :: back, t ∈ b'.content.annotatedTypes := by
  intro b hb t ht
  rcases List.mem_append.1 hb with hb | hb
  · exact ⟨b, List.mem_append_left _ hb, ht⟩
  rcases List.mem_cons.1 hb with rfl | hb
  · rw [h] at ht
    cases ht
  · exact ⟨b, List.mem_append_right _ (List.mem_cons_of_mem _ hb), ht⟩

namespace Substitutes

/-- What is checked of a list holds of it as the attributes of code, too. -/
theorem inCode {body : Code} {attributes : List NamedAttribute}
    (h : Substitutes body.attributes attributes) :
    Substitutes (front ++ ⟨nameIndex, .code body⟩ :: back)
      (front ++ ⟨nameIndex, .code { body with attributes }⟩ :: back) := by
  refine ⟨fun hadmitted => ?_, annotated_insert rfl⟩
  rw [allAdmitted_insert] at hadmitted ⊢
  obtain ⟨hfront, ⟨ha, hbody⟩, hback⟩ := hadmitted
  rw [Attribute.sites, Code.sites_eq] at hbody
  refine ⟨hfront, ⟨admittedBy_code ha, ?_⟩, hback⟩
  rw [Attribute.sites, Code.sites_eq, allAdmitted_inCode]
  exact h.admitted hbody

/-- What is checked of a list holds of it as the attributes of a component, too. -/
theorem inComponent {above below : List RecordComponent} {row : RecordComponent}
    {attributes : List NamedAttribute} (h : Substitutes row.attributes attributes) :
    Substitutes (front ++ ⟨nameIndex, .record (above ++ row :: below)⟩ :: back)
      (front ++ ⟨nameIndex, .record (above ++ { row with attributes } :: below)⟩ :: back) := by
  refine ⟨fun hadmitted => ?_, annotated_insert rfl⟩
  rw [allAdmitted_insert] at hadmitted ⊢
  obtain ⟨hfront, ⟨ha, hrows⟩, hback⟩ := hadmitted
  refine ⟨hfront, ⟨admittedBy_component ha, ?_⟩, hback⟩
  simp only [Attribute.sites, RecordComponent.allSites_eq_flatMap, AllAdmitted, List.flatMap_append,
    List.flatMap_cons, List.forall_mem_append] at hrows ⊢
  exact ⟨hrows.1, h.admitted hrows.2.1, hrows.2.2⟩

/-- What may stand in place of a list may stand there with what is around it. -/
theorem fill (h : Substitutes l l') (context : Context) :
    Substitutes (context.fill l) (context.fill l') := by
  induction context with
  | hole => exact h
  | code front nameIndex body inner back ih =>
    exact @inCode _ _ _ { body with attributes := inner.fill l } _ ih
  | component front nameIndex above row inner below back ih =>
    exact @inComponent _ _ _ _ _ { row with attributes := inner.fill l } _ ih

/-- Bytes that are not decoded are not checked. -/
theorem other (b b' : Bytes) :
    Substitutes (front ++ ⟨nameIndex, .other b⟩ :: back)
      (front ++ ⟨nameIndex, .other b'⟩ :: back) := by
  refine ⟨fun hadmitted => ?_, annotated_insert rfl⟩
  rw [allAdmitted_insert] at hadmitted ⊢
  obtain ⟨hfront, ⟨ha, -⟩, hback⟩ := hadmitted
  refine ⟨hfront, ⟨⟨ha.name, ha.registered, ⟨by simp, by simp, trivial, by simp⟩, nofun⟩, ?_⟩,
    hback⟩
  simp [Attribute.sites, AllAdmitted]

/-- Attributes are checked each for itself. -/
theorem of_perm (h : l.Perm l') : Substitutes l l' := by
  refine ⟨fun hadmitted p hp => ?_, fun a ha t ht => ⟨a, h.mem_iff.2 ha, ht⟩⟩
  rw [allSites_eq_flatMap, List.mem_flatMap] at hp
  obtain ⟨a, ha, hp⟩ := hp
  refine hadmitted p ?_
  rw [allSites_eq_flatMap, List.mem_flatMap]
  exact ⟨a, h.mem_iff.2 ha, hp⟩

end Substitutes

end Attribute

end ClassFormat
