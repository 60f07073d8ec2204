import Mathlib
import ClassFormat.Proofs.ClassFile.Codec

/-!
# Sound class files

All references of a class file, at any depth: indices of the pool, and numbers of bootstrap
methods, interfaces, exception handlers and declared exceptions. A class file that is read is
sound: what it refers to is there, whether code offsets are verified or not.

* `ClassFile.references`, `ClassFile.annotatedTypes`: what refers to something;
* `ClassFile.Sound`: all that is referred to is there;
* `ClassFile.ofBytes_sound`: class files that are read are sound.
-/

namespace ClassFormat

/-- The bootstrap method that a constant refers to by its number. -/
def Constant.bootstrap? : Constant → Option UInt16
  | .dynamic bootstrap _ | .invokeDynamic bootstrap _ => some bootstrap
  | _ => none

/-- The references of an attribute, that to its name included, other than those of attributes in
    it. -/
def NamedAttribute.references (a : NamedAttribute) : List Reference :=
  .required a.nameIndex [.utf8] :: a.content.references

namespace ClassFile

variable {c : ClassFile} {options : ReadOptions} {bytes : Bytes}

/-! ### What refers to something -/

/-- All references into the pool that are outside of it. -/
def references (c : ClassFile) : List Reference :=
  c.ownReferences ++ (c.fields ++ c.methods).flatMap Member.references ++
    c.sites.flatMap fun p => p.2.references

/-- All type annotations, each with what is around the attribute that it is in. -/
def annotatedTypes (c : ClassFile) : List (Site × TypeAnnotation) :=
  c.sites.flatMap fun p => p.2.content.annotatedTypes.map fun t => (p.1, t)

/-- All that a class file refers to is there. -/
structure Sound (c : ClassFile) : Prop where
  /-- The references between constants resolve. -/
  pool : c.pool.Resolved
  references : ∀ r ∈ c.references, r.Resolves c.pool
  bootstraps : ∀ entry ∈ c.pool.entries, ∀ n, entry.2.bootstrap? = some n →
    n.toNat < c.bootstrapCount
  targets : ∀ p ∈ c.annotatedTypes, p.1.location ∈ p.2.target.locations
  supertypes : ∀ p ∈ c.annotatedTypes, ∀ index, p.2.info = .supertype index →
    index = TargetInfo.superclass ∨ index.toNat < c.interfaces.length
  /-- The handlers are those of the code that the annotation is in. -/
  handlers : ∀ p ∈ c.annotatedTypes, ∀ index, p.2.info = .handler index →
    ∃ code, p.1.code? = some code ∧ index.toNat < code.handlers.length
  /-- The exceptions are those that the method declares. -/
  throws : ∀ p ∈ c.annotatedTypes, ∀ index, p.2.info = .throws index → index.toNat < p.1.exceptions

/-! ### Sites -/

/-- The site is in a class with a number of interfaces, and only a method declares exceptions. -/
def SiteOf (interfaces : Nat) (site : Site) : Prop :=
  site.interfaces = interfaces ∧ (site.location ≠ .method → site.exceptions = 0)

/-- Sites are passed on from attributes to those in them. -/
theorem passes_siteOf (interfaces : Nat) : Site.Passes (fun _ => True) (SiteOf interfaces) :=
  ⟨fun _ h => ⟨h.1, fun _ => rfl⟩, fun h => ⟨h.1, fun _ => rfl⟩⟩

/-- The attributes of a class file are those of its fields, of its methods, and its own. -/
theorem forall_mem_sites {P : Site × NamedAttribute → Prop} : (∀ p ∈ c.sites, P p) ↔
    (∀ m ∈ c.fields, ∀ p ∈ m.sites .field c.interfaces.length, P p) ∧
      (∀ m ∈ c.methods, ∀ p ∈ m.sites .method c.interfaces.length, P p) ∧
        ∀ p ∈ NamedAttribute.allSites c.site c.attributes, P p := by
  simp only [sites, List.forall_mem_append, List.forall_mem_flatMap, and_assoc]

/-- Every attribute of a class file stands at a site of the class file. -/
theorem siteOf_of_mem_sites : ∀ p ∈ c.sites, SiteOf c.interfaces.length p.1 := by
  have hall {site : Site} {attributes : List NamedAttribute} (h : SiteOf c.interfaces.length site) :
      ∀ p ∈ NamedAttribute.allSites site attributes, SiteOf c.interfaces.length p.1 :=
    NamedAttribute.forall_allSites (passes_siteOf _) attributes h (by simp)
  refine forall_mem_sites.2 ⟨fun m _ => hall ⟨rfl, fun _ => ?_⟩, fun m _ => hall ⟨rfl, fun h => ?_⟩,
    hall ⟨rfl, fun _ => rfl⟩⟩
  · simp [Member.site]
  · exact absurd rfl h

/-- Attributes of a method, other than those in them, are where attributes of methods are. -/
theorem exists_method_of_mem_sites {p : Site × NamedAttribute} (hp : p ∈ c.sites)
    (hlocation : p.1.location = .method) :
    ∃ m ∈ c.methods, p.1 = m.site .method c.interfaces.length ∧ p.2 ∈ m.attributes := by
  have hroot {site : Site} {attributes : List NamedAttribute}
      (hp : p ∈ NamedAttribute.allSites site attributes) : p.1 = site ∧ p.2 ∈ attributes :=
    NamedAttribute.mem_of_mem_allSites hp (by simp [hlocation]) (by simp [hlocation])
  rw [sites, List.mem_append, List.mem_append, List.mem_flatMap, List.mem_flatMap] at hp
  rcases hp with (⟨m, -, hp⟩ | ⟨m, hm, hp⟩) | hp
  · rw [(hroot hp).1] at hlocation
    cases hlocation
  · exact ⟨m, hm, hroot hp⟩
  · rw [(hroot hp).1] at hlocation
    cases hlocation

/-! ### Soundness -/

/-- No constant counts beyond the bootstrap methods that there are. -/
theorem checkBootstrapIndices_eq_ok : c.checkBootstrapIndices = .ok () ↔
    ∀ entry ∈ c.pool.entries, ∀ n, entry.2.bootstrap? = some n → n.toNat < c.bootstrapCount := by
  simp only [checkBootstrapIndices, List.forM_eq_forM, forM_eq_ok]
  refine forall₂_congr fun entry _ => ?_
  cases entry.2 <;> simp [Constant.bootstrap?]

/-- All attributes of an admitted class file are admitted, at all depths. -/
theorem Admitted.forall_sites (h : c.Admitted options) :
    ∀ p ∈ c.sites, p.2.AdmittedBy (p.1.surroundings c.pool options) :=
  forall_mem_sites.2 ⟨fun m hm => (h.fields m hm).sites, fun m hm => (h.methods m hm).sites,
    h.sites⟩

/-- All type annotations of an admitted class file are for a location like theirs, and for something
    that is there. -/
theorem Admitted.forall_annotatedTypes (h : c.Admitted options) : ∀ p ∈ c.annotatedTypes,
    p.1.location ∈ p.2.target.locations ∧ p.2.info.Bounded (p.1.surroundings c.pool options) := by
  refine List.forall_mem_flatMap.2 fun p hp => List.forall_mem_map.2 fun t ht => ?_
  exact (h.forall_sites p hp).content.annotatedTypes t ht

/-- An admitted class file is sound, if its pool is resolved. -/
theorem Admitted.sound (h : c.Admitted options) (hpool : c.pool.Resolved) : c.Sound where
  pool := hpool
  references := by
    simp only [ClassFile.references, List.forall_mem_append, List.forall_mem_flatMap]
    refine ⟨⟨h.references, ⟨fun m hm => (h.fields m hm).references,
      fun m hm => (h.methods m hm).references⟩⟩, fun p hp => List.forall_mem_cons.2 ⟨?_, ?_⟩⟩
    · exact Reference.resolves_required.2 (h.forall_sites p hp).name
    · exact (h.forall_sites p hp).content.references
  bootstraps := checkBootstrapIndices_eq_ok.1 h.bootstrap
  targets p hp := (h.forall_annotatedTypes p hp).1
  supertypes p hp index hinfo := by
    obtain ⟨q, hq, hp'⟩ := List.mem_flatMap.1 hp
    obtain ⟨t, -, rfl⟩ := List.mem_map.1 hp'
    have hbounded := (h.forall_annotatedTypes _ hp).2
    rw [hinfo] at hbounded
    exact (siteOf_of_mem_sites q hq).1 ▸ hbounded
  handlers p hp index hinfo := by
    have hbounded := (h.forall_annotatedTypes p hp).2
    rw [hinfo] at hbounded
    obtain ⟨map, hmap, hlt⟩ := hbounded
    obtain ⟨code, hcode, rfl⟩ := Option.map_eq_some_iff.1 hmap
    exact ⟨code, hcode, hlt⟩
  throws p hp index hinfo := by
    obtain ⟨q, hq, hp'⟩ := List.mem_flatMap.1 hp
    obtain ⟨t, ht, rfl⟩ := List.mem_map.1 hp'
    have hlocation := (h.forall_annotatedTypes _ hp).2
    rw [hinfo] at hlocation
    obtain ⟨m, hm, hsite, hmem⟩ := exists_method_of_mem_sites hq hlocation
    -- The exceptions that are annotated are counted against those of the same method.
    have hlt := (h.methods m hm).throws rfl q.2 hmem t ht index hinfo
    rw [hsite]
    exact hlt

/-- All that a class file refers to is there, once it has been read. -/
theorem ofBytes_sound (h : ofBytes options bytes = .ok c) : c.Sound := by
  obtain ⟨x, y, -, hresolved, -, hadmitted, -⟩ := ofBytes_eq_ok.1 h
  exact hadmitted.sound hresolved

/-- The class that is read is sound. -/
theorem ofBytes_sound_thrower : ofBytes {} throwerBytes = .ok thrower ∧ thrower.Sound :=
  ⟨ofBytes_thrower, ofBytes_sound ofBytes_thrower⟩

end ClassFile

end ClassFormat
