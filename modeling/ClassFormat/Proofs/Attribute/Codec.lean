import Mathlib
import ClassFormat.Proofs.Attribute.Leaf
import ClassFormat.Proofs.Text.Basic

/-!
# Attributes, read back

An attribute is stored as its name, the length of its body, and its body. It is read back
from what is written for it exactly if its name resolves, it stands where attributes of its
kind may stand, and its contents are read back.

* `NamedAttribute.Registered`: the attribute is decoded exactly if its name is that of a kind
  which is allowed where it stands;
* `NamedAttribute.inverts_read`: an attribute, whatever decodes its body.
-/

namespace ClassFormat

open Reader

namespace Attribute.Kind

variable {kind : Kind} {name : Text}

/-- The kind that a name stands for is the one that has the name. -/
theorem ofName?_eq_some : ofName? name = some kind ↔ name = Text.ofString kind.name := by
  have h : ofName? name = some kind ↔
      ∃ s, name.toString? = some s ∧ (all.find? fun kind => kind.name == s) = some kind := by
    simp only [ofName?, Option.bind_eq_bind, Option.bind_eq_some_iff]
  rw [h]
  constructor
  · rintro ⟨s, hs, hfind⟩
    have : kind.name = s := by simpa using List.find?_some hfind
    exact this ▸ Text.toString?_eq_some.1 hs
  · rintro rfl
    exact ⟨kind.name, Text.toString?_ofString _, by cases kind <;> rfl⟩

end Attribute.Kind

namespace ConstantPool

/-- An index holds a text if it refers to exactly this text. -/
theorem holdsText_iff {pool : ConstantPool} {index : UInt16} {t : Text} :
    pool.holdsText index t = true ↔ pool.get? index = some (.utf8 t) := by
  unfold holdsText
  split
  next t' h => simp [h]
  next h => exact ⟨nofun, fun ht => absurd ht (h t)⟩

end ConstantPool

namespace NamedAttribute

/-- The attribute is decoded exactly if its name is that of a kind that may stand at the
    location. -/
def Registered (pool : ConstantPool) (location : Location) (a : NamedAttribute) : Prop :=
  match a.content.kind? with
  | some kind => location ∈ kind.locations
  | none => ∀ kind : Attribute.Kind, pool.holdsText a.nameIndex (Text.ofString kind.name) = true →
      location ∉ kind.locations

variable {s : Surroundings} {pool : ConstantPool} {a : NamedAttribute} {bytes : Bytes}

/-! ### Bodies -/

/-- The body of an attribute is decoded as a whole, and nothing beyond it is taken. -/
theorem reads_readBody {kind : Attribute.Kind} {declared : UInt32} {start : Nat} {body : Bytes}
    {decode : Reader Attribute} {L : Spelling Attribute} (h : decode.Covers L) :
    (readBody kind declared start body decode).Reads fun content x => L content body ∧ x = [] := by
  refine Reads.mapFailure ⟨?_, ?_⟩
  · intro c a c' hr
    obtain ⟨⟨content, left⟩, c₁, hconfined, hr⟩ := Reader.bind_eq_ok.1 hr
    obtain ⟨inner, hdecode, rfl, rfl⟩ := confined_eq_ok.1 hconfined
    cases hleft : inner.rest with
    | nil =>
      rw [hleft] at hr
      cases hr
      exact ⟨[], ⟨h.sound hdecode hleft, rfl⟩, rfl, rfl⟩
    | cons b rest =>
      rw [hleft] at hr
      cases hr
  · rintro a _ ⟨ha, rfl⟩ c rest hc
    obtain ⟨inner, hdecode, hleft⟩ := h.complete (c := ⟨body, start, c.log⟩) ha
    refine ⟨{ c with log := inner.log }, Reader.bind_eq_ok.2 ⟨(a, inner.rest), _, confined_eq_ok.2
      ⟨inner, hdecode, rfl, rfl⟩, ?_⟩, rfl, rfl⟩
    rw [hleft]
    rfl

/-- A decoded attribute has the name of its kind. The name of any other one is a text. -/
theorem checkName_eq_ok : checkName pool a = .ok () ↔
    match a.content.kind? with
    | some kind => pool.get? a.nameIndex = some (.utf8 (Text.ofString kind.name))
    | none => pool.Refers a.nameIndex [.utf8] := by
  unfold checkName
  cases a.content.kind? with
  | some kind => simp [ConstantPool.holdsText_iff]
  | none => simp [← ConstantPool.exists_require_eq_ok]

/-- An attribute is written as its name, its length, and its body. -/
theorem write_eq_ok : a.write pool = .ok bytes ↔ checkName pool a = .ok () ∧
    ∃ body, a.content.write pool = .ok body ∧ body.length < 4294967296 ∧
      bytes = Writer.u2 a.nameIndex ++ (Writer.u4 (UInt32.ofNat body.length) ++ body) := by
  obtain ⟨nameIndex, content⟩ := a
  simp [write, eq_comm (b := bytes), and_assoc]

/-! ### Attributes -/

/-- The attribute is decoded exactly if `name` is that of a kind that may stand at the location. -/
def DecodedUnder (name : Text) (location : Location) (a : NamedAttribute) : Prop :=
  match a.content.kind? with
  | some kind => name = Text.ofString kind.name ∧ location ∈ kind.locations
  | none => ∀ kind : Attribute.Kind, name = Text.ofString kind.name → location ∉ kind.locations

/-- An attribute with the name of a text is decoded under that text. -/
theorem decodedUnder_iff {name : Text} {location : Location}
    (hname : s.pool.text a.nameIndex = .ok name) :
    a.DecodedUnder name location ↔ checkName s.pool a = .ok () ∧ a.Registered s.pool location := by
  obtain ⟨h0, hget⟩ := ConstantPool.text_eq_ok.1 hname
  rw [checkName_eq_ok, DecodedUnder, Registered]
  cases a.content.kind? with
  | some kind => simp [hget]
  | none =>
    have hrefers := ConstantPool.exists_text_eq_ok.1 ⟨name, hname⟩
    simp [ConstantPool.holdsText_iff, hget, hrefers]

variable {name : Text} {location : Location}

/-- A body is kept as it is if no kind with the name may stand at the location. -/
theorem decodedUnder_other {nameIndex : UInt16} {body : Bytes} :
    DecodedUnder name location ⟨nameIndex, .other body⟩ ↔
      ∀ kind, Attribute.Kind.ofName? name = some kind → location ∉ kind.locations := by
  simp [DecodedUnder, Attribute.kind?, Attribute.Kind.ofName?_eq_some]

/-- Contents that are not decoded are the bytes that are written for them. -/
theorem DecodedUnder.eq_other {body : Bytes} (h : a.DecodedUnder name location)
    (hname : ∀ kind, Attribute.Kind.ofName? name = some kind → location ∉ kind.locations)
    (hwrite : a.content.write s.pool = .ok body) : a.content = .other body := by
  rw [DecodedUnder] at h
  cases hkind : a.content.kind? with
  | some kind =>
    rw [hkind] at h
    exact absurd h.2 (hname kind (Attribute.Kind.ofName?_eq_some.2 h.1))
  | none =>
    obtain ⟨x, hx⟩ := Attribute.kind?_eq_none.1 hkind
    rw [hx, Attribute.write, Except.ok.injEq] at hwrite
    rw [hx, hwrite]

/-- With the name of a kind that may stand at the location, it is this kind that is decoded. -/
theorem decodedUnder_of_mem {kind : Attribute.Kind}
    (hname : Attribute.Kind.ofName? name = some kind) (hlocation : location ∈ kind.locations) :
    a.DecodedUnder name location ↔ a.content.kind? = some kind := by
  obtain rfl := Attribute.Kind.ofName?_eq_some.1 hname
  rw [DecodedUnder]
  constructor
  · intro h
    cases hkind : a.content.kind? with
    | some kind' =>
      rw [hkind] at h
      exact (Attribute.Kind.ofName?_eq_some.2 h.1).symm.trans hname
    | none =>
      rw [hkind] at h
      exact absurd hlocation (h kind rfl)
  · intro h
    rw [h]
    exact ⟨rfl, hlocation⟩

/-- An attribute is read as the bodies of the kinds that may stand where it is. -/
theorem inverts_read {decode : Attribute.Kind → Reader Attribute} {P : Attribute → Prop}
    (hother : ∀ body, P (.other body)) (hdecode : ∀ kind : Attribute.Kind,
      s.location ∈ kind.locations → (decode kind).Covers fun content body =>
        content.kind? = some kind ∧ content.write s.pool = .ok body ∧ P content) :
    (read s decode).Inverts (write s.pool) fun a =>
      s.pool.Refers a.nameIndex [.utf8] ∧ a.Registered s.pool s.location ∧ P a.content := by
  refine Reads.offset fun offset => Reads.congr (reads_u2.bind fun nameIndex =>
    (Reads.check (Failure.inside (.readingAttributeName offset) (s.pool.text nameIndex))).bind
      fun name => reads_u4.bind fun length => Reads.offset fun start =>
      (reads_bytes length.toNat).within.bind
        (M := fun body (a : NamedAttribute) y => a.nameIndex = nameIndex ∧
          a.DecodedUnder name s.location ∧
          a.content.write s.pool = .ok body ∧ P a.content ∧
          y = []) fun body => ?_) fun a bytes => ?_
  · -- The bytes are kept under a name of no kind, and under one of a kind that may not stand here.
    have hkept (hname : ∀ kind, Attribute.Kind.ofName? name = some kind →
        s.location ∉ kind.locations) (event : Log.Event) : Reader.Reads (α := NamedAttribute)
          (do Reader.log event; return ⟨nameIndex, .other body⟩) fun a y =>
            a.nameIndex = nameIndex ∧ a.DecodedUnder name s.location ∧
              a.content.write s.pool = .ok body ∧ P a.content ∧ y = [] := by
      refine Reads.congr ((Reads.log event).bind fun _ => Reads.pure _) fun a y => ⟨?_, ?_⟩
      · rintro ⟨_, _, rfl, _, ⟨rfl, rfl⟩, rfl⟩
        exact ⟨rfl, decodedUnder_other.2 hname, by rw [Attribute.write], hother body, rfl⟩
      · obtain ⟨nameIndex', content⟩ := a
        rintro ⟨rfl, hdecoded, hwrite, -, rfl⟩
        obtain rfl : content = .other body := hdecoded.eq_other hname hwrite
        exact ⟨(), _, rfl, [], ⟨rfl, rfl⟩, rfl⟩
    split
    next hname => exact hkept (by simp [hname]) _
    next kind hname =>
      split
      next hlocation =>
        refine Reads.congr ((Reads.log _).bind fun _ =>
          (reads_readBody (hdecode kind hlocation)).within.bind
          fun content => Reads.pure _) fun a y => ?_
        rw [decodedUnder_of_mem hname hlocation]
        constructor
        · rintro ⟨_, _, rfl, _, ⟨content, _, ⟨⟨hkind, hwrite, hP⟩, rfl⟩, _, ⟨rfl, rfl⟩, rfl⟩, rfl⟩
          exact ⟨rfl, hkind, hwrite, hP, rfl⟩
        · obtain ⟨nameIndex', content⟩ := a
          rintro ⟨rfl, hkind, hwrite, hP, rfl⟩
          exact ⟨(), _, rfl, _, ⟨content, _, ⟨⟨hkind, hwrite, hP⟩, rfl⟩, [], ⟨rfl, rfl⟩, rfl⟩, rfl⟩
      next hlocation => exact hkept (by simpa [hname] using hlocation) _
  · simp only [inside_eq_ok, write_eq_ok]
    constructor
    · rintro ⟨nameIndex, _, rfl, _, ⟨name, _, ⟨hname, rfl⟩, _, ⟨length, _, rfl, _, ⟨body, _,
        ⟨rfl, hlength⟩, _, ⟨rfl, hdecoded, hwrite, hP, rfl⟩, rfl⟩, rfl⟩, rfl⟩, rfl⟩
      obtain ⟨hcheck, hregistered⟩ := (decodedUnder_iff hname).1 hdecoded
      refine ⟨⟨hcheck, _, hwrite, ?_, ?_⟩, ConstantPool.exists_text_eq_ok.1 ⟨name, hname⟩,
        hregistered, hP⟩
      · exact hlength ▸ length.toNat_lt
      · simp [hlength]
    · rintro ⟨⟨hcheck, body, hwrite, hlength, rfl⟩, hrefers, hregistered, hP⟩
      obtain ⟨name, hname⟩ := ConstantPool.exists_text_eq_ok.2 hrefers
      have hdecoded := (decodedUnder_iff hname).2 ⟨hcheck, hregistered⟩
      exact ⟨_, _, rfl, _, ⟨name, _, ⟨hname, rfl⟩, _, ⟨_, _, rfl, _, ⟨body, _,
        ⟨rfl, (UInt32.toNat_ofNat_of_lt' hlength).symm⟩, [], ⟨rfl, hdecoded, hwrite, hP, rfl⟩,
          (List.append_nil _).symm⟩, rfl⟩, rfl⟩, rfl⟩

end NamedAttribute

end ClassFormat
