import Mathlib
import ClassFormat.Proofs.ClassFile.RoundTrip
import ClassFormat.Proofs.Verification

/-!
# Class files, verified and not

Verifying code offsets refuses class files with an offset that is wrong, and nothing else: the same
class file is read, and what is refused for its offsets alone is refused as malformed.

* `Code.Verified`: all offsets of code, those of its attributes included, are right;
* `NamedAttribute.allAdmitted_verified`: what is checked in addition when offsets are verified;
* `ClassFile.ofBytes_verified`: class files.
-/

namespace ClassFormat

/-- The offsets of code are right. Branches and switches lead to instructions, handlers cover ranges
    that are not empty, and so on for the offsets of each attribute of the code. -/
structure Code.Verified (code : Code) : Prop where
  branches : ∀ i ∈ code.instructions, ∀ o ∈ i.offsets, code.Lies o
  handlers : ∀ h ∈ code.handlers, h.startPc < h.endPc ∧ ∀ o ∈ h.offsets, code.Lies o
  attributes : ∀ a ∈ code.attributes, ∀ o ∈ a.content.offsets, code.Lies o

variable {pool : ConstantPool} {site : Site}

/-- Code whose offsets are verified is admitted without that, too. -/
theorem Code.AdmittedBy.unverified {code : Code} {verify : Bool} (h : code.AdmittedBy verify) :
    code.AdmittedBy false where
  recorded := h.recorded
  admissible := h.admissible
  branches _ _ _ _ := nofun
  handlers _ _ := ⟨fun _ _ => nofun, nofun⟩

/-- The bounds of the data of type annotations do not depend on whether offsets are verified. -/
theorem TargetInfo.bounded_verify {info : TargetInfo} {verify verify' : Bool}
    (h : info.Bounded (site.surroundings pool ⟨verify⟩)) :
    info.Bounded (site.surroundings pool ⟨verify'⟩) := by
  cases info with
  | handler index =>
    obtain ⟨map, hmap, hlt⟩ := h
    obtain ⟨code, hcode, rfl⟩ := Option.map_eq_some_iff.1 hmap
    exact ⟨_, Option.map_eq_some_iff.2 ⟨code, hcode, rfl⟩, hlt⟩
  | _ => exact h

namespace NamedAttribute

variable {a : NamedAttribute} {attributes : List NamedAttribute} {verify verify' : Bool}

/-- Whether offsets are verified matters for the offsets and the code of an attribute only. -/
theorem AdmittedBy.reverify (h : a.AdmittedBy (site.surroundings pool ⟨verify⟩))
    (hoffsets : ∀ o ∈ a.content.offsets, (site.surroundings pool ⟨verify'⟩).Admits o)
    (hcode : ∀ body, a.content = .code body → body.AdmittedBy verify') :
    a.AdmittedBy (site.surroundings pool ⟨verify'⟩) where
  name := h.name
  registered := h.registered
  content :=
    { references := h.content.references
      offsets := hoffsets
      nests := h.content.nests
      annotatedTypes := fun t ht =>
        ⟨(h.content.annotatedTypes t ht).1,
        TargetInfo.bounded_verify (h.content.annotatedTypes t ht).2⟩ }
  code := hcode

/-- An attribute whose offsets are verified is admitted without that, too. -/
theorem AdmittedBy.unverified (h : a.AdmittedBy (site.surroundings pool ⟨verify⟩)) :
    a.AdmittedBy (site.surroundings pool ⟨false⟩) := by
  refine h.reverify (fun o _ map hmap => ?_) fun body hbody => (h.code body hbody).unverified
  obtain ⟨code, -, rfl⟩ := Option.map_eq_some_iff.1 hmap
  exact nofun

/-- Attributes are admitted with their offsets verified exactly if they are without, and the offsets
    of all code are right. -/
theorem allAdmitted_verified (hsite : site.code? = none) :
    AllAdmitted pool ⟨true⟩ (allSites site attributes) ↔
      AllAdmitted pool ⟨false⟩ (allSites site attributes) ∧
      ∀ p ∈ allSites site attributes, ∀ code, p.2.content = .code code → code.Verified := by
  constructor
  · intro h
    refine ⟨fun p hp => (h p hp).unverified, fun p hp code hcode => ?_⟩
    have hadmitted := (h p hp).code code hcode
    refine ⟨hadmitted.regular.branches, hadmitted.regular.handlers, fun a ha o ho => ?_⟩
    -- An attribute of the code was admitted in its own right.
    have hinner := h _ ((within_of_mem _ hp).of_code hcode ha).mem_allSites
    exact (Code.lies_map hadmitted.recorded).1 (hinner.content.offsets o ho _ rfl rfl)
  · rintro ⟨h, hverified⟩ p hp
    refine (h p hp).reverify (fun o ho map hmap _ => ?_) fun body hbody => ?_
    · -- The attribute is one of the code that it is checked against.
      obtain ⟨code, hcode, rfl⟩ := Option.map_eq_some_iff.1 hmap
      rcases (within_of_mem _ hp).exists_code hcode with ⟨hsome, -⟩ | ⟨q, hq, hcontent, hmem⟩
      · rw [hsite] at hsome
        cases hsome
      · have hrecorded := ((h q hq.mem_allSites).code code hcontent).recorded
        exact (Code.lies_map hrecorded).2
          ((hverified q hq.mem_allSites code hcontent).attributes _ hmem o ho)
    · -- The code of the attribute itself.
      have hbranches := hverified p hp body hbody
      have hadmitted := (h p hp).code body hbody
      exact Code.Regular.admittedBy
        ⟨hadmitted.recorded, hadmitted.admissible, hbranches.branches, hbranches.handlers⟩ true

end NamedAttribute

namespace ClassFile

variable {c : ClassFile}

/-- A class file is admitted with its offsets verified exactly if it is without, and the offsets of
    all code are right. -/
theorem admitted_verified : c.Admitted ⟨true⟩ ↔ c.Admitted ⟨false⟩ ∧
    ∀ p ∈ c.sites, ∀ code, p.2.content = .code code → code.Verified := by
  have hmember {m : Member} {location : Location} {n : Nat} : m.Admitted c.pool ⟨true⟩ location n ↔
      m.Admitted c.pool ⟨false⟩ location n ∧
        ∀ p ∈ m.sites location n, ∀ code, p.2.content = .code code → code.Verified := by
    constructor
    · rintro ⟨hrefs, hsites, hthrows⟩
      obtain ⟨hsites, hverified⟩ := (NamedAttribute.allAdmitted_verified rfl).1 hsites
      exact ⟨⟨hrefs, hsites, hthrows⟩, hverified⟩
    · rintro ⟨⟨hrefs, hsites, hthrows⟩, hverified⟩
      exact ⟨hrefs, (NamedAttribute.allAdmitted_verified rfl).2 ⟨hsites, hverified⟩, hthrows⟩
  rw [forall_mem_sites]
  constructor
  · rintro ⟨hrefs, hfields, hmethods, hsites, hbootstrap⟩
    obtain ⟨hsites, hverified⟩ := (NamedAttribute.allAdmitted_verified rfl).1 hsites
    exact ⟨⟨hrefs, fun m hm => (hmember.1 (hfields m hm)).1, fun m hm =>
      (hmember.1 (hmethods m hm)).1, hsites,
      hbootstrap⟩, fun m hm => (hmember.1 (hfields m hm)).2, fun m hm =>
      (hmember.1 (hmethods m hm)).2, hverified⟩
  · rintro ⟨⟨hrefs, hfields, hmethods, hsites, hbootstrap⟩, hinFields, hinMethods, hverified⟩
    exact ⟨hrefs, fun m hm => hmember.2 ⟨hfields m hm, hinFields m hm⟩,
      fun m hm => hmember.2 ⟨hmethods m hm, hinMethods m hm⟩,
      (NamedAttribute.allAdmitted_verified rfl).2 ⟨hsites, hverified⟩, hbootstrap⟩

/-- A class file is read with its offsets verified exactly if it is without, and the offsets of all
    code are right. If they are not, it is refused as malformed. -/
theorem ofBytes_verified (bytes : Bytes) :
    (∀ c, ofBytes ⟨true⟩ bytes = .ok c ↔ ofBytes ⟨false⟩ bytes = .ok c ∧
      ∀ p ∈ c.sites, ∀ code, p.2.content = .code code → code.Verified) ∧
    ∀ c f, ofBytes ⟨false⟩ bytes = .ok c → ofBytes ⟨true⟩ bytes = .error f →
      ∃ how, f.fault? = some (.malformed how) := by
  constructor
  · intro c
    rw [ofBytes_eq_ok, ofBytes_eq_ok]
    constructor
    · rintro ⟨x, y, hspelled, hresolved, hy, hadmitted, rfl⟩
      obtain ⟨hadmitted, hverified⟩ := admitted_verified.1 hadmitted
      exact ⟨⟨x, y, hspelled, hresolved, hy, hadmitted, rfl⟩, hverified⟩
    · rintro ⟨⟨x, y, hspelled, hresolved, hy, hadmitted, rfl⟩, hverified⟩
      exact ⟨x, y, hspelled, hresolved, hy, admitted_verified.2 ⟨hadmitted, hverified⟩, rfl⟩
  · intro c f hlax hstrict
    obtain ⟨cursor, hlax⟩ := ofBytes_ok_iff.1 hlax
    obtain ⟨cursor', hstrict⟩ := ofBytes_error_iff.1 hstrict
    rcases tightens_read.agrees hlax with hsame | ⟨f', cursor'', hfail, hf⟩
    · rw [hstrict] at hsame
      cases hsame
    · rw [hstrict] at hfail
      cases hfail
      exact hf

/-- The bytes of `thrower`, but with a handler that is within its first instruction. -/
def strayBytes : Bytes := throwerBytes.set 75 1

/-- `thrower`, but with a handler that is within its first instruction. -/
def stray : ClassFile :=
  { thrower with
    methods :=
      [⟨0, 1, 3, [⟨4, .code ⟨1, 1, [⟨0, 0xBB, .constant 2⟩, ⟨3, 0xBF, .none⟩],
      [⟨0, 4, 1, 2⟩], []⟩⟩]⟩] }

/-- A handler whose code starts within an instruction is malformed only if offsets are verified. -/
theorem ofBytes_verified_stray : ofBytes ⟨false⟩ strayBytes = .ok stray ∧
    ∃ f how, ofBytes ⟨true⟩ strayBytes = .error f ∧ f.fault? = some (.malformed how) := by
  have hlax : ofBytes ⟨false⟩ strayBytes = .ok stray := by cbv
  have hstrict : (ofBytes ⟨true⟩ strayBytes).isOk = false := by cbv
  refine ⟨hlax, ?_⟩
  cases h : ofBytes ⟨true⟩ strayBytes with
  | ok c =>
    rw [h] at hstrict
    cases hstrict
  | error f =>
    obtain ⟨how, hfault⟩ := (ofBytes_verified strayBytes).2 stray f hlax h
    exact ⟨f, how, rfl, hfault⟩

end ClassFile

end ClassFormat
