import Mathlib
import ClassFormat.Proofs.ClassFile.Context

/-!
# Bytes that are not decoded

The bytes of an attribute that is not decoded are those of its body. Nothing else of what is read or
written depends on them, but for the lengths of the attributes they are in.

* `ClassFile.Undecoded`: an attribute that is not decoded, without its bytes, and all that is around
  it;
* `ClassFile.exists_undecoded`: what is around each such attribute of a class file;
* `ClassFile.ofBytes_undecoded`: with other bytes in it, a class file that was read is written and
  read back.
-/

namespace ClassFormat

open Attribute

namespace ClassFile

/-- A class file with an attribute that is not decoded, but for the bytes of it. -/
structure Undecoded where
  context : Context
  before : List NamedAttribute
  nameIndex : UInt16
  after : List NamedAttribute

namespace Undecoded

/-- The list of attributes, with the bytes of that one. -/
def list (u : Undecoded) (b : Bytes) : List NamedAttribute :=
  u.before ++ ⟨u.nameIndex, .other b⟩ :: u.after

/-- The class file, with the bytes of the attribute. -/
def fill (u : Undecoded) (b : Bytes) : ClassFile := u.context.fill (u.list b)

/-- The attribute, and those that it is in. -/
def depth (u : Undecoded) : Nat := u.context.depth + 1

end Undecoded

variable {c : ClassFile} {u : Undecoded} {options : ReadOptions} {bytes out b : Bytes}

/-- Whatever attribute is not decoded, at any depth, the rest of the class file is around its
    bytes. -/
theorem exists_undecoded {site : Site} {nameIndex : UInt16}
    (h : (site, ⟨nameIndex, .other b⟩) ∈ c.sites) :
    ∃ u : Undecoded, u.nameIndex = nameIndex ∧ c = u.fill b := by
  obtain ⟨context, before, after, h⟩ := exists_context h
  exact ⟨⟨context, before, nameIndex, after⟩, rfl, h⟩

/-- The bytes are written as they are, and what is around them as an enclosure. -/
theorem Undecoded.exists_enclosure (hwrite : (u.fill b).toBytes = .ok out) :
    ∃ e : Enclosure, e.lengths = u.depth ∧ e.Encloses (fun b => (u.fill b).toBytes) .ok := by
  obtain ⟨z, hz⟩ := Context.exists_written hwrite
  have hbody : Enclosure.bare.Encloses (fun b => (Attribute.other b).write u.context.base.pool)
      .ok := by
    simp only [Attribute.write]
    exact Enclosure.encloses_refl _
  obtain ⟨e, hlengths, he⟩ := exists_listed hbody (fun _ => rfl) hz
  obtain ⟨e', hlengths', he'⟩ := Context.exists_enclosure he hwrite
  exact ⟨e', by rw [hlengths', hlengths, Undecoded.depth, Enclosure.lengths, Nat.zero_add,
    Nat.add_comm], he'⟩

/-- The bytes are not checked. -/
theorem Undecoded.admitted_fill (b' : Bytes) (h : (u.fill b).Admitted options) :
    (u.fill b').Admitted options :=
  Context.admitted_fill (.other b b') (fun _ _ _ => find?_insert nofun nofun) h

/-- Take a class file that was read and can be written, and any attribute of it that is not decoded.
    With whatever other bytes in that attribute for which the lengths of all attributes around them
    fit, and only with these, it is written, differing in these lengths and the bytes only, and it
    is read back, differing in the bytes only. -/
theorem ofBytes_undecoded (hread : ofBytes options bytes = .ok c) :
    (∀ site nameIndex b, (site, ⟨nameIndex, .other b⟩) ∈ c.sites →
      ∃ u : Undecoded, u.nameIndex = nameIndex ∧ c = u.fill b) ∧
    ∀ (u : Undecoded) b out, c = u.fill b → c.toBytes = .ok out →
      ∃ e : Enclosure, e.lengths = u.depth ∧ e.Fits b ∧ out = e.fill b ∧
        (∀ b' out', (u.fill b').toBytes = .ok out' ↔ e.Fits b' ∧ out' = e.fill b') ∧
          ∀ b', e.Fits b' → ofBytes options (e.fill b') = .ok (u.fill b') := by
  refine ⟨fun site nameIndex b => exists_undecoded, ?_⟩
  intro u b out hc hwrite
  subst hc
  obtain ⟨e, hlengths, he⟩ := Undecoded.exists_enclosure hwrite
  have hwritten (b' out' : Bytes) : (u.fill b').toBytes = .ok out' ↔ e.Fits b' ∧ out' = e.fill b' :=
    (he b' out').trans (by simp)
  obtain ⟨hfits, hout⟩ := (hwritten b out).1 hwrite
  obtain ⟨-, -, -, -, -, hadmitted, -⟩ := ofBytes_eq_ok.1 hread
  refine ⟨e, hlengths, hfits, hout, hwritten, fun b' hb' => ?_⟩
  exact ofBytes_of_admitted hread (by simp [Undecoded.fill]) (Undecoded.admitted_fill b' hadmitted)
    ((hwritten b' _).2 ⟨hb', rfl⟩)

/-- `thrower` with code in its code, which is not decoded there, but for the bytes of it. -/
def nested : Undecoded where
  context :=
    { base := thrower
      holder := .method [] ⟨0, 1, 3, []⟩ []
      inner := .code [] 4 ⟨1, 1, [⟨0, 0xBB, .constant 2⟩, ⟨3, 0xBF, .none⟩],
      [⟨0, 4, 3, 2⟩], []⟩ .hole [] }
  before := []
  nameIndex := 4
  after := []

/-- The bytes of `nested` with two bytes in the code that is not decoded. -/
def nestedBytes : Bytes :=
  [0xCA, 0xFE, 0xBA, 0xBE, 0, 0, 0, 52,
    0, 5, 1, 0, 1, 65, 7, 0, 1, 1, 0, 3, 40, 41, 86, 1, 0, 4, 67, 111, 100, 101,
    0, 0, 0, 2, 0, 0, 0, 0, 0, 0,
    0, 1, 0, 0, 0, 1, 0, 3, 0, 1, 0, 4, 0, 0, 0, 32, 0, 1, 0, 1, 0, 0, 0, 4, 0xBB, 0, 2, 0xBF,
    0, 1, 0, 0, 0, 4, 0, 3, 0, 2, 0, 1, 0, 4, 0, 0, 0, 2, 8, 9, 0, 0]

/-- Other bytes in an attribute that is not decoded, two levels deep. -/
theorem ofBytes_undecoded_nested : ofBytes {} nestedBytes = .ok (nested.fill [8, 9]) ∧
    ∃ e : Enclosure, e.lengths = 2 ∧ nestedBytes = e.fill [8, 9] ∧
      (nested.fill [9, 8]).toBytes = .ok (e.fill [9, 8]) ∧
        ofBytes {} (e.fill [9, 8]) = .ok (nested.fill [9, 8]) := by
  have hread : ofBytes {} nestedBytes = .ok (nested.fill [8, 9]) := by cbv
  have hwrite : (nested.fill [8, 9]).toBytes = .ok nestedBytes := by cbv
  obtain ⟨e, hlengths, hfits, hbytes, hwritten, hother⟩ :=
    (ofBytes_undecoded hread).2 nested [8, 9] nestedBytes rfl hwrite
  have hfits' : e.Fits [9, 8] := hfits.congr rfl
  exact ⟨hread, e, hlengths, hbytes, (hwritten _ _).2 ⟨hfits', rfl⟩, hother [9, 8] hfits'⟩

end ClassFile

end ClassFormat
