import Mathlib
import ClassFormat.Proofs.ClassFile.Context

/-!
# The order of attributes

Attributes may stand in any order. Where what is in one list is counted for another attribute or for
constants, namely bootstrap methods and declared exceptions, it is the first attribute of its kind
that counts, so there may be only one of these.

* `Attribute.find?_of_perm`: an attribute that is the only one of its kind is found in any order;
* `ClassFile.Reordered`: the lists of attributes of a class file, at all depths, in other orders;
* `ClassFile.reordered_of_rearranged`: the lists may be permuted all at once, each in a way of its
  own;
* `ClassFile.Permutes.settled`, `ClassFile.Reordered.settled`: what permuting one list preserves,
  and so does permuting one after another;
* `ClassFile.ofBytes_reordered`, `ClassFile.ofBytes_rearranged`: a reordered class file is written
  and read back.
-/

namespace ClassFormat

/-! ### Lists in another order -/

namespace Spelling

/-- Items in another order have as many bytes. -/
theorem exists_each_of_perm {α : Type} {L : Spelling α} {items items' : List α}
    (h : items.Perm items') {x : Bytes} (hx : L.each items x) :
    ∃ x', L.each items' x' ∧ x'.length = x.length := by
  induction h generalizing x with
  | nil => exact ⟨x, hx, rfl⟩
  | cons a _ ih =>
    obtain ⟨u, v, hu, hv, rfl⟩ := hx
    obtain ⟨v', hv', hlength⟩ := ih hv
    exact ⟨u ++ v', ⟨u, v', hu, hv', rfl⟩, by simp only [List.length_append, hlength]⟩
  | swap a b rest =>
    obtain ⟨u, _, hu, ⟨v, w, hv, hw, rfl⟩, rfl⟩ := hx
    refine ⟨v ++ (u ++ w), ⟨v, _, hv, ⟨u, w, hu, hw, rfl⟩, rfl⟩, ?_⟩
    simp only [List.length_append]
    omega
  | trans _ _ ih₁ ih₂ =>
    obtain ⟨y, hy, hlength⟩ := ih₁ hx
    obtain ⟨z, hz, hlength'⟩ := ih₂ hy
    exact ⟨z, hz, hlength'.trans hlength⟩

end Spelling

namespace Attribute

variable {kind : Kind} {l l' : List NamedAttribute}

/-- The number of attributes of a kind in a list. -/
def numberOf (kind : Kind) (attributes : List NamedAttribute) : Nat :=
  attributes.countP fun a => a.content.kind? = some kind

/-- A list of attributes in another order has as many bytes. -/
theorem exists_writeList_of_perm {pool : ConstantPool} {x : Bytes} (h : l.Perm l')
    (hx : writeList pool l = .ok x) : ∃ x', writeList pool l' = .ok x' ∧ x'.length = x.length := by
  rw [writeList_eq_table] at hx ⊢
  obtain ⟨hcount, y, hy, rfl⟩ := Writer.table_eq_ok.1 hx
  obtain ⟨y', hy', hlength⟩ := Spelling.exists_each_of_perm h hy
  refine ⟨_, Writer.table_eq_ok.2 ⟨h.length_eq ▸ hcount, y', hy', rfl⟩, ?_⟩
  simp only [List.length_append, Writer.length_u2, hlength]

/-- An attribute that is the only one of its kind is found in any order. -/
theorem find?_of_perm (h : l.Perm l') (hone : numberOf kind l ≤ 1) :
    find? kind l = find? kind l' := by
  let p : NamedAttribute → Bool := fun a => a.content.kind? = some kind
  have hfind (attributes : List NamedAttribute) :
      find? kind attributes = (attributes.filter p).head?.map NamedAttribute.content := by
    rw [find?, List.find?_map, List.head?_filter]
    rfl
  rw [numberOf, List.countP_eq_length_filter] at hone
  have hperm : (l.filter p).Perm (l'.filter p) := h.filter p
  -- A list of at most one attribute has one order only.
  have heq : l.filter p = l'.filter p := by
    rcases hl : l.filter p with _ | ⟨a, _ | ⟨b, rest⟩⟩
    · exact (hl ▸ hperm).nil_eq
    · exact List.singleton_perm.1 (hl ▸ hperm)
    · simp [p, hl] at hone
  rw [hfind, hfind, heq]

/-- The attributes around a list are of the same kinds whatever is in the list. -/
theorem Context.numberOf_fill (h : l.Perm l') (context : Context) :
    numberOf kind (context.fill l) = numberOf kind (context.fill l') := by
  cases context with
  | hole => exact h.countP_eq _
  | code | component =>
    simp only [fill, numberOf, List.countP_append, List.countP_cons]
    rfl

/-! ### Lists at all depths in other orders -/

/-- One list of attributes in another one, at any depth, in another order. -/
def PermutesWithin (l l' : List NamedAttribute) : Prop :=
  ∃ (context : Context) (p p' : List NamedAttribute), p.Perm p' ∧ l = context.fill p ∧
    l' = context.fill p'

mutual

/-- An attribute, with each list of attributes in it in an order of its own. -/
inductive Rearranged : NamedAttribute → NamedAttribute → Prop
  | same (a) : Rearranged a a
  | code {nameIndex : UInt16} {body : Code} {attributes : List NamedAttribute}
    (h : ListRearranged body.attributes attributes) :
    Rearranged ⟨nameIndex, .code body⟩ ⟨nameIndex, .code { body with attributes }⟩
  | record {nameIndex : UInt16} {components components' : List RecordComponent}
    (h : ComponentsRearranged components components') :
    Rearranged ⟨nameIndex, .record components⟩ ⟨nameIndex, .record components'⟩

/-- A list of attributes in any order, with each list in its attributes in an order of its own. -/
inductive ListRearranged : List NamedAttribute → List NamedAttribute → Prop
  | nil : ListRearranged [] []
  | cons {a a' : NamedAttribute} {rest rest' : List NamedAttribute} (ha : Rearranged a a')
    (hrest : ListRearranged rest rest') : ListRearranged (a :: rest) (a' :: rest')
  | perm {l middle l' : List NamedAttribute} (h : ListRearranged l middle)
    (hperm : middle.Perm l') : ListRearranged l l'

/-- Components, with each list of attributes in them in an order of its own. -/
inductive ComponentsRearranged : List RecordComponent → List RecordComponent → Prop
  | nil : ComponentsRearranged [] []
  | cons {row : RecordComponent} {attributes : List NamedAttribute}
    {below below' : List RecordComponent}
    (hrow : ListRearranged row.attributes attributes) (hbelow : ComponentsRearranged below below') :
    ComponentsRearranged (row :: below) ({ row with attributes } :: below')

end

open Relation (ReflTransGen)

/-- Lists are permuted in code as they are by themselves. -/
theorem permuted_code (front : List NamedAttribute) (nameIndex : UInt16) (body : Code)
    (back : List NamedAttribute) (h : ReflTransGen PermutesWithin body.attributes l) :
    ReflTransGen PermutesWithin (front ++ ⟨nameIndex, .code body⟩ :: back)
      (front ++ ⟨nameIndex, .code { body with attributes := l }⟩ :: back) := by
  obtain ⟨maxStack, maxLocals, instructions, handlers, attributes⟩ := body
  let body : Code := ⟨maxStack, maxLocals, instructions, handlers, attributes⟩
  refine h.lift (Context.code front nameIndex body .hole back).fill ?_
  rintro _ _ ⟨context, p, p', hperm, rfl, rfl⟩
  exact ⟨.code front nameIndex body context back, p, p', hperm, rfl, rfl⟩

/-- Lists are permuted in a component as they are by themselves. -/
theorem permuted_component (front : List NamedAttribute) (nameIndex : UInt16)
    (above : List RecordComponent) (row : RecordComponent) (below : List RecordComponent)
    (back : List NamedAttribute) (h : ReflTransGen PermutesWithin row.attributes l) :
    ReflTransGen PermutesWithin (front ++ ⟨nameIndex, .record (above ++ row :: below)⟩ :: back)
      (front ++ ⟨nameIndex, .record (above ++ { row with attributes := l } :: below)⟩ :: back) := by
  obtain ⟨name, descriptor, attributes⟩ := row
  let row : RecordComponent := ⟨name, descriptor, attributes⟩
  refine h.lift (Context.component front nameIndex above row .hole below back).fill ?_
  rintro _ _ ⟨context, p, p', hperm, rfl, rfl⟩
  exact ⟨.component front nameIndex above row context below back, p, p', hperm, rfl, rfl⟩

mutual

/-- The lists in an attribute are permuted one after another. -/
theorem Rearranged.permuted {a a' : NamedAttribute} (front back : List NamedAttribute) :
    Rearranged a a' → ReflTransGen PermutesWithin (front ++ a :: back) (front ++ a' :: back)
  | .same _ => .refl
  | .code h => permuted_code front _ _ back (h.permuted [])
  | .record h => h.permuted front _ [] back

/-- The attributes are rearranged one after another, and the list is permuted in the end. -/
theorem ListRearranged.permuted {l l' : List NamedAttribute} (front : List NamedAttribute) :
    ListRearranged l l' → ReflTransGen PermutesWithin (front ++ l) (front ++ l')
  | .nil => .refl
  | @ListRearranged.cons _ a' rest _ ha hrest =>
    (ha.permuted front rest).trans (by simpa using hrest.permuted (front ++ [a']))
  | .perm h hperm => (h.permuted front).tail ⟨.hole, _, _, hperm.append_left front, rfl, rfl⟩

/-- The lists of components are permuted component by component. -/
theorem ComponentsRearranged.permuted {rows rows' : List RecordComponent}
    (front : List NamedAttribute) (nameIndex : UInt16) (above : List RecordComponent)
    (back : List NamedAttribute) :
    ComponentsRearranged rows rows' → ReflTransGen PermutesWithin
      (front ++ ⟨nameIndex, .record (above ++ rows)⟩ :: back)
      (front ++ ⟨nameIndex, .record (above ++ rows')⟩ :: back)
  | .nil => .refl
  | @ComponentsRearranged.cons row attributes below _ hrow hbelow => by
    have hrest := hbelow.permuted front nameIndex (above ++ [{ row with attributes }]) back
    rw [List.append_assoc, List.append_assoc] at hrest
    exact (permuted_component front nameIndex above row below back (hrow.permuted [])).trans hrest

end

end Attribute

/-! ### Class files in another order -/

namespace ClassFile

open Attribute

variable {c c' : ClassFile} {context : Context} {l l' : List NamedAttribute} {options : ReadOptions}
  {bytes out : Bytes}

/-- One list of attributes of the class file, at any depth, in another order. -/
def Permutes (c c' : ClassFile) : Prop :=
  ∃ (context : Context) (l l' : List NamedAttribute), l.Perm l' ∧ c = context.fill l ∧
    c' = context.fill l'

/-- The lists of attributes of the class file, at all depths, each in an order of its own: they are
    permuted one after another. -/
def Reordered : ClassFile → ClassFile → Prop := Relation.ReflTransGen Permutes

/-- A member, with each list of attributes in it in an order of its own. -/
def MemberRearranged (m m' : Member) : Prop :=
  ∃ attributes, ListRearranged m.attributes attributes ∧ m' = { m with attributes }

/-- The list of a holder is rearranged in the class file. -/
theorem Holder.reordered_fill (holder : Holder) (h : ListRearranged l l') :
    (holder.fill c l).Reordered (holder.fill c l') := by
  refine (h.permuted []).lift (holder.fill c) ?_
  rintro _ _ ⟨context, p, p', hperm, rfl, rfl⟩
  exact ⟨⟨c, holder, context⟩, p, p', hperm, rfl, rfl⟩

/-- Members are rearranged one after another. -/
theorem reordered_members {f : List Member → ClassFile} {members members' : List Member}
    (above : List Member) (hf : ∀ (above : List Member) (m : Member) (below : List Member) {l l'},
      ListRearranged l l' → (f (above ++ { m with attributes := l } :: below)).Reordered
        (f (above ++ { m with attributes := l' } :: below)))
    (h : List.Forall₂ MemberRearranged members members') :
    (f (above ++ members)).Reordered (f (above ++ members')) := by
  induction h generalizing above with
  | nil => exact .refl
  | @cons m _ rest rest' hm _ ih =>
    obtain ⟨attributes, hattributes, rfl⟩ := hm
    have hrest := ih (above ++ [{ m with attributes }])
    rw [List.append_assoc, List.append_assoc] at hrest
    exact (hf above m rest hattributes).trans hrest

/-- The lists of attributes may also be permuted all at once, independently of each other. -/
theorem reordered_of_rearranged {fields methods : List Member} {attributes : List NamedAttribute}
    (hfields : List.Forall₂ MemberRearranged c.fields fields)
    (hmethods : List.Forall₂ MemberRearranged c.methods methods)
    (hattributes : ListRearranged c.attributes attributes) :
    c.Reordered { c with fields, methods, attributes } := by
  have h₁ : c.Reordered { c with fields } :=
    reordered_members (f := fun fields => { c with fields }) []
      (fun above m below _ _ h => (Holder.field above m below).reordered_fill h) hfields
  have h₂ : Reordered { c with fields } { c with fields, methods } :=
    reordered_members (f := fun methods => { c with fields, methods }) []
      (fun above m below _ _ h => (Holder.method above m below).reordered_fill
      (c := { c with fields }) h) hmethods
  have h₃ : Reordered { c with fields, methods } { c with fields, methods, attributes } :=
    Holder.classFile.reordered_fill (c := { c with fields, methods }) hattributes
  exact (h₁.trans h₂).trans h₃

/-- The class has at most one attribute with bootstrap methods, and each method at most one with
    exceptions. -/
structure DeclaresOnce (c : ClassFile) : Prop where
  bootstrap : numberOf .bootstrapMethods c.attributes ≤ 1
  exceptions : ∀ m ∈ c.methods, numberOf .exceptions m.attributes ≤ 1

/-- What is declared once is declared once in any order. -/
theorem Context.declaresOnce_fill (h : l.Perm l') (honce : (context.fill l).DeclaresOnce) :
    (context.fill l').DeclaresOnce := by
  obtain ⟨base, holder, inner⟩ := context
  have hbootstrap := honce.bootstrap
  have hexceptions := honce.exceptions
  cases holder with
  | classFile => exact ⟨(inner.numberOf_fill h).symm.trans_le hbootstrap, hexceptions⟩
  | field above m below => exact ⟨hbootstrap, hexceptions⟩
  | method above m below =>
    refine ⟨hbootstrap, ?_⟩
    simp only [fill, Holder.fill, List.forall_mem_append, List.forall_mem_cons] at hexceptions ⊢
    exact ⟨hexceptions.1, (inner.numberOf_fill h).symm.trans_le hexceptions.2.1, hexceptions.2.2⟩

/-- What is counted in a list that is declared once is found in any order of the list. -/
theorem Context.find?_of_counted (h : l.Perm l') (honce : (context.fill l).DeclaresOnce)
    (hhole : context.inner = .hole) :
    ∀ kind ∈ context.holder.counted?, find? kind l = find? kind l' := by
  obtain ⟨base, holder, inner⟩ := context
  obtain rfl : inner = .hole := hhole
  intro kind hkind
  refine find?_of_perm h ?_
  cases holder with
  | classFile =>
    cases hkind
    exact honce.bootstrap
  | field above m below => cases hkind
  | method above m below =>
    cases hkind
    exact honce.exceptions _ (List.mem_append_right _ (List.mem_cons_self ..))

/-- Permuting one list keeps what a class file has to have for it to be read back. -/
theorem Permutes.settled (h : Permutes c c') (honce : c.DeclaresOnce) (hwrite : c.toBytes = .ok out)
    (hadmitted : c.Admitted options) :
    c'.pool = c.pool ∧ c'.DeclaresOnce ∧ (∃ out', c'.toBytes = .ok out') ∧ c'.Admitted options := by
  obtain ⟨context, l, l', hperm, rfl, rfl⟩ := h
  obtain ⟨e, -, he⟩ := context.exists_enclosure (f := id) (Enclosure.encloses_refl _) hwrite
  obtain ⟨x, hx, hfits, -⟩ := (he l out).1 hwrite
  obtain ⟨x', hx', hlength⟩ := exists_writeList_of_perm hperm hx
  refine ⟨by simp, context.declaresOnce_fill hperm honce,
    ⟨_, (he l' _).2 ⟨x', hx', hfits.congr hlength, rfl⟩⟩, ?_⟩
  exact context.admitted_fill (.of_perm hperm) (context.find?_of_counted hperm honce) hadmitted

/-- Permuting one list after another keeps it, too. -/
theorem Reordered.settled (h : c.Reordered c') (honce : c.DeclaresOnce)
    (hwrite : c.toBytes = .ok out) (hadmitted : c.Admitted options) :
    c'.pool = c.pool ∧ c'.DeclaresOnce ∧ (∃ out', c'.toBytes = .ok out') ∧ c'.Admitted options := by
  induction h with
  | refl => exact ⟨rfl, honce, ⟨out, hwrite⟩, hadmitted⟩
  | tail _ hstep ih =>
    obtain ⟨hpool, honce', ⟨out', hwrite'⟩, hadmitted'⟩ := ih
    obtain ⟨hpool', hnext⟩ := hstep.settled honce' hwrite' hadmitted'
    exact ⟨hpool'.trans hpool, hnext⟩

/-- Take a class file that was read and can be written, with at most one attribute for its bootstrap
    methods, and for each method at most one for its exceptions. With its lists of attributes in any
    other order, it is written and read back as it is. -/
theorem ofBytes_reordered (hread : ofBytes options bytes = .ok c) (hwrite : c.toBytes = .ok out)
    (honce : c.DeclaresOnce) (h : c.Reordered c') :
    ∃ out', c'.toBytes = .ok out' ∧ ofBytes options out' = .ok c' := by
  obtain ⟨-, -, -, -, -, hadmitted, -⟩ := ofBytes_eq_ok.1 hread
  obtain ⟨hpool, -, ⟨out', hwrite'⟩, hadmitted'⟩ := h.settled honce hwrite hadmitted
  exact ⟨out', hwrite', ofBytes_of_admitted hread hpool hadmitted' hwrite'⟩

/-- A class with a method that has the attributes. -/
def declaring (attributes : List NamedAttribute) : ClassFile :=
  { empty with
    pool := ⟨#[none, some (.ofString "A"), some (.classref 1), some (.ofString "()V"),
      some (.ofString "Exceptions"), some (.ofString "Code")]⟩
    thisClass := 2
    methods := [⟨0, 1, 3, attributes⟩] }

/-- The exceptions that the method declares. -/
def declared : NamedAttribute := ⟨4, .exceptions [2]⟩

/-- The code of the method, which returns. -/
def returning : NamedAttribute := ⟨5, .code ⟨0, 1, [⟨0, 0xB1, .none⟩], [], []⟩⟩

/-- The bytes of the class, with the exceptions after the code. -/
def declaringBytes : Bytes :=
  [0xCA, 0xFE, 0xBA, 0xBE, 0, 0, 0, 0,
    0, 6, 1, 0, 1, 65, 7, 0, 1, 1, 0, 3, 40, 41, 86, 1, 0, 10, 69, 120, 99, 101, 112, 116, 105, 111,
    110, 115, 1, 0, 4, 67, 111, 100, 101,
    0, 0, 0, 2, 0, 0, 0, 0, 0, 0,
    0, 1, 0, 0, 0, 1, 0, 3, 0, 2,
    0, 5, 0, 0, 0, 13, 0, 0, 0, 1, 0, 0, 0, 1, 0xB1, 0, 0, 0, 0,
    0, 4, 0, 0, 0, 4, 0, 1, 0, 2, 0, 0]

/-- The exceptions may stand before the code or after it. -/
theorem ofBytes_reordered_declaring :
    ofBytes {} declaringBytes = .ok (declaring [returning, declared]) ∧
    (declaring [returning, declared]).Reordered (declaring [declared, returning]) ∧
      ∃ out, (declaring [declared, returning]).toBytes = .ok out ∧
        ofBytes {} out = .ok (declaring [declared, returning]) := by
  have hread : ofBytes {} declaringBytes = .ok (declaring [returning, declared]) := by cbv
  have hwrite : (declaring [returning, declared]).toBytes = .ok declaringBytes := by cbv
  have honce : (declaring [returning, declared]).DeclaresOnce :=
    ⟨by decide, by simp [declaring]; decide⟩
  have hreordered : (declaring [returning, declared]).Reordered (declaring [declared, returning]) :=
    .single ⟨⟨declaring [], .method [] ⟨0, 1, 3, []⟩ [], .hole⟩, _, _, .swap .., rfl, rfl⟩
  exact ⟨hread, hreordered, ofBytes_reordered hread hwrite honce hreordered⟩

/-- It is written and read back, too, with all of its lists of attributes permuted at once, each
    in a way of its own. -/
theorem ofBytes_rearranged {fields methods : List Member} {attributes : List NamedAttribute}
    (hread : ofBytes options bytes = .ok c) (hwrite : c.toBytes = .ok out)
    (honce : c.DeclaresOnce) (hfields : List.Forall₂ MemberRearranged c.fields fields)
    (hmethods : List.Forall₂ MemberRearranged c.methods methods)
    (hattributes : ListRearranged c.attributes attributes) :
    ∃ out', toBytes { c with fields, methods, attributes } = .ok out' ∧
      ofBytes options out' = .ok { c with fields, methods, attributes } := by
  obtain ⟨-, -, -, -, -, hadmitted, -⟩ := ofBytes_eq_ok.1 hread
  have h := reordered_of_rearranged hfields hmethods hattributes
  obtain ⟨hpool, -, ⟨out', hwrite'⟩, hadmitted'⟩ := h.settled honce hwrite hadmitted
  exact ⟨out', hwrite', ofBytes_of_admitted hread hpool hadmitted' hwrite'⟩

end ClassFile

end ClassFormat
