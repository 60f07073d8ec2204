import Mathlib
import ClassFormat.Proofs.Attribute.Context
import ClassFormat.Proofs.ClassFile.RoundTrip
import ClassFormat.Proofs.Text.Joined

/-!
# What is around the attributes of a class file

Each list of attributes of a class file, at any depth, may be replaced by another one. The pool is
the same, and what is written around the list is the same but for the lengths of the attributes it
is in.

* `ClassFile.Context`: what is around a list of attributes in a class file;
* `ClassFile.Context.exists_enclosure`: it is written as an enclosure;
* `ClassFile.Context.admitted_fill`: a class file is admitted with another list, if whatever is
  checked of the list holds of the other one;
* `ClassFile.ofBytes_of_admitted`: a class file with the pool of one that was read is read back.
-/

namespace ClassFormat

open Attribute

/-! ### Contexts -/

namespace ClassFile

/-- What has a list of attributes that is not in another one: the class file, or a member of it. -/
inductive Holder where
  | classFile
  | field (above : List Member) (m : Member) (below : List Member)
  | method (above : List Member) (m : Member) (below : List Member)

/-- The class file with other attributes of the holder. -/
def Holder.fill (c : ClassFile) : Holder → List NamedAttribute → ClassFile
  | classFile, attributes => { c with attributes }
  | field above m below, attributes => { c with fields := above ++ { m with attributes } :: below }
  | method above m below, attributes =>
    { c with methods := above ++ { m with attributes } :: below }

/-- The attributes of the kind count what others, or constants, refer to by number. -/
def Holder.counted? : Holder → Option Kind
  | classFile => some .bootstrapMethods
  | field .. => none
  | method .. => some .exceptions

/-- What is counted are neither codes nor records. -/
theorem Holder.ne_of_counted {holder : Holder} {kind : Kind} (h : kind ∈ holder.counted?) :
    kind ≠ .code ∧ kind ≠ .record := by
  cases holder <;> cases h <;> decide

/-- What is around a list of attributes in a class file. -/
structure Context where
  base : ClassFile
  holder : Holder
  inner : Attribute.Context

namespace Context

/-- A list of attributes with what is around it. -/
def fill (context : Context) (attributes : List NamedAttribute) : ClassFile :=
  context.holder.fill context.base (context.inner.fill attributes)

/-- The number of attributes around a list. -/
def depth (context : Context) : Nat := context.inner.depth

end Context

variable {c c' : ClassFile} {holder : Holder} {context : Context} {options : ReadOptions}
  {bytes out : Bytes} {l l' : List NamedAttribute}

@[simp] theorem Holder.pool_fill (holder : Holder) (attributes : List NamedAttribute) :
    (holder.fill c attributes).pool = c.pool := by
  cases holder <;> rfl

/-- Another list of attributes leaves the pool as it is. -/
@[simp] theorem Context.pool_fill (context : Context) (attributes : List NamedAttribute) :
    (context.fill attributes).pool = context.base.pool :=
  context.holder.pool_fill _

/-- Every attribute, at any depth, is in a list that has a context. -/
theorem exists_context {p : Site × NamedAttribute} (hp : p ∈ c.sites) :
    ∃ (context : Context) (before after : List NamedAttribute),
      c = context.fill (before ++ p.2 :: after) := by
  simp only [sites, List.mem_append, List.mem_flatMap] at hp
  rcases hp with (⟨m, hm, hp⟩ | ⟨m, hm, hp⟩) | hp
  · obtain ⟨inner, before, after, h⟩ := Attribute.exists_context (NamedAttribute.within_of_mem _ hp)
    obtain ⟨above, below, hfields⟩ := List.append_of_mem hm
    exact ⟨⟨c, .field above m below, inner⟩, before, after, by simp [Context.fill, Holder.fill,
      ← h, ← hfields]⟩
  · obtain ⟨inner, before, after, h⟩ := Attribute.exists_context (NamedAttribute.within_of_mem _ hp)
    obtain ⟨above, below, hmethods⟩ := List.append_of_mem hm
    exact ⟨⟨c, .method above m below, inner⟩, before, after, by simp [Context.fill, Holder.fill,
      ← h, ← hmethods]⟩
  · obtain ⟨inner, before, after, h⟩ := Attribute.exists_context (NamedAttribute.within_of_mem _ hp)
    exact ⟨⟨c, .classFile, inner⟩, before, after, by simp [Context.fill, Holder.fill, ← h]⟩

/-! ### Contexts are written -/

/-- If a class file can be written, then so can the list of any holder in it. -/
theorem Holder.exists_written (hwrite : (holder.fill c l).toBytes = .ok out) :
    ∃ z, writeList c.pool l = .ok z := by
  obtain ⟨-, -, y, hy, -⟩ := toBytes_eq_ok.1 hwrite
  obtain ⟨-, -, fields, hfields, methods, hmethods, attributes, hattributes, -⟩ := body_eq_ok.1 hy
  have hmember {members : List Member} {m : Member} {table : Bytes}
      (htable : Writer.table (Member.write c.pool) members = .ok table)
      (hm : { m with attributes := l } ∈ members) : ∃ z, writeList c.pool l = .ok z := by
    obtain ⟨row, hrow⟩ := Writer.exists_of_table htable _ hm
    obtain ⟨z, hz, -⟩ := Member.write_eq_ok.1 hrow
    exact ⟨z, hz⟩
  cases holder with
  | classFile => exact ⟨attributes, hattributes⟩
  | field above m below => exact hmember hfields (List.mem_append_right _ (List.mem_cons_self ..))
  | method above m below => exact hmember hmethods (List.mem_append_right _ (List.mem_cons_self ..))

/-- What is around the list of a holder is written as an enclosure, with no length in it. -/
theorem Holder.exists_enclosure {α : Type} {e : Enclosure} {inner : α → Written}
    {f : α → List NamedAttribute} {a : α} (h : e.Encloses (fun a => writeList c.pool (f a)) inner)
    (hwrite : (holder.fill c (f a)).toBytes = .ok out) :
    ∃ e' : Enclosure, e'.lengths = e.lengths ∧
      e'.Encloses (fun a => (holder.fill c (f a)).toBytes) inner := by
  obtain ⟨x, hx, y, hy, -⟩ := toBytes_eq_ok.1 hwrite
  obtain ⟨interfaces, hinterfaces, fields, hfields, methods, hmethods, attributes, hattributes,
    -⟩ := body_eq_ok.1 hy
  have hmember (m : Member) :
      (Enclosure.between (Writer.u2 m.accessFlags ++ (Writer.u2 m.nameIndex ++
      Writer.u2 m.descriptorIndex)) [] e).Encloses
        (fun a => Member.write c.pool { m with attributes := f a }) inner :=
    h.between fun a out => by simp [Member.write_eq_ok]
  let start :=
    c.head ++ (x ++ (Writer.u2 c.accessFlags ++ (Writer.u2 c.thisClass ++ (Writer.u2 c.superClass ++
    interfaces))))
  cases holder with
  | classFile =>
    refine ⟨.between (start ++ (fields ++ methods)) [] e, rfl, h.between fun a out => ?_⟩
    simp only [Holder.fill] at hx hinterfaces hfields hmethods ⊢
    simp [toBytes_eq_ok, body_eq_ok, hx, hinterfaces, hfields, hmethods, start, head]
  | field above m below =>
    obtain ⟨before, after, htable⟩ := (hmember m).table hfields
    refine ⟨.between start (methods ++ attributes) (.between before after (.between _ [] e)), rfl,
      htable.between fun a out => ?_⟩
    simp only [Holder.fill] at hx hinterfaces hmethods hattributes ⊢
    simp [toBytes_eq_ok, body_eq_ok, hx, hinterfaces, hmethods, hattributes, start, head]
  | method above m below =>
    obtain ⟨before, after, htable⟩ := (hmember m).table hmethods
    refine ⟨.between (start ++ fields) attributes (.between before after (.between _ [] e)), rfl,
      htable.between fun a out => ?_⟩
    simp only [Holder.fill] at hx hinterfaces hfields hattributes ⊢
    simp [toBytes_eq_ok, body_eq_ok, hx, hinterfaces, hfields, hattributes, start, head]

/-- What is around a list is written as an enclosure of what is written for the list. -/
theorem Context.exists_enclosure {α : Type} {e : Enclosure} {inner : α → Written}
    {f : α → List NamedAttribute} {a : α}
    (h : e.Encloses (fun a => writeList context.base.pool (f a)) inner)
    (hwrite : (context.fill (f a)).toBytes = .ok out) :
    ∃ e' : Enclosure, e'.lengths = e.lengths + context.depth ∧
      e'.Encloses (fun a => (context.fill (f a)).toBytes) inner := by
  obtain ⟨z, hz⟩ := Holder.exists_written hwrite
  obtain ⟨e₁, hlengths₁, he₁⟩ := context.inner.exists_enclosure h hz
  obtain ⟨e₂, hlengths₂, he₂⟩ := Holder.exists_enclosure he₁ hwrite
  exact ⟨e₂, hlengths₂.trans hlengths₁, he₂⟩

/-- If a class file can be written, then so can a list at any depth of it. -/
theorem Context.exists_written (hwrite : (context.fill l).toBytes = .ok out) :
    ∃ z, writeList context.base.pool l = .ok z := by
  obtain ⟨e, -, he⟩ := context.exists_enclosure (f := id) (Enclosure.encloses_refl _) hwrite
  obtain ⟨z, hz, -⟩ := (he l out).1 hwrite
  exact ⟨z, hz⟩

/-! ### Contexts are checked -/

end ClassFile

/-- A member is admitted with other attributes, if a method declares as many exceptions with
    them. -/
theorem Member.Admitted.replace {pool : ConstantPool} {options : ReadOptions} {location : Location}
    {interfaces : Nat} {m : Member} {attributes : List NamedAttribute}
    (hm : m.Admitted pool options location interfaces) (h : Substitutes m.attributes attributes)
    (hfind : location = .method →
      Attribute.find? .exceptions m.attributes = Attribute.find? .exceptions attributes) :
    { m with attributes }.Admitted pool options location interfaces := by
  refine ⟨hm.references, ?_, fun hlocation a ha t ht index hinfo => ?_⟩
  · exact (NamedAttribute.allAdmitted_exceptions ..).1 (h.admitted hm.sites)
  · obtain ⟨b, hb, htb⟩ := h.annotated a ha t ht
    have hthrows := hm.throws hlocation b hb t htb index hinfo
    rwa [exceptionCount, hfind hlocation] at hthrows

namespace ClassFile

variable {c c' : ClassFile} {holder : Holder} {context : Context} {options : ReadOptions}
  {bytes out : Bytes} {l l' : List NamedAttribute}

/-- A class file is admitted with another list of a holder, if that has what is counted and whatever
    is checked. -/
theorem Holder.admitted_fill (h : Substitutes l l')
    (hfind : ∀ kind ∈ holder.counted?, find? kind l = find? kind l')
    (hadmitted : (holder.fill c l).Admitted options) : (holder.fill c l').Admitted options := by
  cases holder with
  | classFile =>
    refine ⟨hadmitted.references, hadmitted.fields, hadmitted.methods,
      h.admitted hadmitted.sites, ?_⟩
    have hcount : (Holder.classFile.fill c l').bootstrapCount =
        (Holder.classFile.fill c l).bootstrapCount := by
      simp only [bootstrapCount, Holder.fill, hfind _ rfl]
    rw [checkBootstrapIndices_eq_ok, hcount]
    exact checkBootstrapIndices_eq_ok.1 hadmitted.bootstrap
  | field above m below =>
    have hfields := hadmitted.fields
    refine ⟨hadmitted.references, ?_, hadmitted.methods, hadmitted.sites, hadmitted.bootstrap⟩
    simp only [Holder.fill, List.forall_mem_append, List.forall_mem_cons] at hfields ⊢
    exact ⟨hfields.1, hfields.2.1.replace h nofun, hfields.2.2⟩
  | method above m below =>
    have hmethods := hadmitted.methods
    refine ⟨hadmitted.references, hadmitted.fields, ?_, hadmitted.sites, hadmitted.bootstrap⟩
    simp only [Holder.fill, List.forall_mem_append, List.forall_mem_cons] at hmethods ⊢
    exact ⟨hmethods.1, hmethods.2.1.replace h fun _ => hfind _ rfl, hmethods.2.2⟩

/-- A class file is admitted with another list, if whatever is checked of the list holds of the
    other one, and the attributes that are counted in it are the same. -/
theorem Context.admitted_fill (h : Substitutes l l')
    (hfind : context.inner = .hole → ∀ kind ∈ context.holder.counted?, find? kind l = find? kind l')
    (hadmitted : (context.fill l).Admitted options) : (context.fill l').Admitted options := by
  refine Holder.admitted_fill (h.fill context.inner) (fun kind hkind => ?_) hadmitted
  obtain ⟨hcode, hrecord⟩ := Holder.ne_of_counted hkind
  exact Context.find?_fill hcode hrecord fun hhole => hfind hhole kind hkind

/-! ### Contexts are read back -/

end ClassFile

/-- A text that was decoded is joined. -/
theorem Constant.Spelled.joined {constant : Constant} {x : Bytes}
    (h : Constant.Spelled constant x) : constant.Joined := by
  obtain ⟨content, hcontent, -⟩ := h
  cases constant with
  | utf8 t => exact ModifiedUtf8.joined_of_decode hcontent.2
  | _ => trivial

/-- Texts that were read are joined. -/
theorem ConstantPool.Spelled.joined {pool : ConstantPool} {bytes : Bytes} (h : pool.Spelled bytes) :
    pool.Joined := by
  obtain ⟨constants, y, hlaid, -, hy, -⟩ := h
  have hconstants : ∀ constant ∈ constants, constant.Joined := by
    clear hlaid
    induction constants generalizing y with
    | nil => exact nofun
    | cons constant rest ih =>
      obtain ⟨x, y, hx, hy, -⟩ := hy
      exact List.forall_mem_cons.2 ⟨hx.joined, ih y hy⟩
  rwa [← hlaid.entries_eq, List.forall_mem_map] at hconstants

namespace ClassFile

variable {c c' : ClassFile} {options : ReadOptions} {bytes out : Bytes}

/-- A class file with the pool of one that was read, and that is admitted, is read back from what is
    written for it. -/
theorem ofBytes_of_admitted (hread : ofBytes options bytes = .ok c) (hpool : c'.pool = c.pool)
    (hadmitted : c'.Admitted options) (hwrite : c'.toBytes = .ok out) :
    ofBytes options out = .ok c' := by
  obtain ⟨x, -, hspelled, hresolved, -⟩ := ofBytes_eq_ok.1 hread
  rw [← hpool] at hspelled hresolved
  have hjoined := ConstantPool.Spelled.joined hspelled
  obtain ⟨constants, -, hlaid, hcount, -⟩ := hspelled
  have hformed : c'.pool.WellFormed := ⟨⟨constants, hlaid⟩, Nat.le_of_lt_succ hcount, hresolved⟩
  obtain ⟨z, hz, y, hy, rfl⟩ := toBytes_eq_ok.1 hwrite
  exact ofBytes_eq_ok.2 ⟨z, y, (hformed.spelled_of_write hz).2 hjoined, hresolved,
    hy, hadmitted, rfl⟩

end ClassFile

end ClassFormat
