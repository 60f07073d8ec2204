import Mathlib
import ClassFormat.Proofs.ClassFile.Soundness
import ClassFormat.Proofs.Text.ModifiedUtf8

/-!
# Class files that are read back

A class file that is put together anew, or edited, is read back from what is written for it,
equal in every field, if it is as the reader demands.

* `Code.Lies`, `Code.Regular`: offsets lie on boundaries of instructions;
* `ClassFile.Regular`: the demands on a class file;
* `ClassFile.ofBytes_toBytes`: such a class file is read back exactly if its texts are;
* `ClassFile.ofBytes_of_toBytes`: it is read back if no text splits a code point in two.
-/

namespace ClassFormat

/-! ### Code -/

namespace Code

variable {code : Code} {verify : Bool} {o : CodeOffset}

/-- What has to be at the offset is there. -/
def Lies (code : Code) : CodeOffset → Prop
  | .start offset => ∃ i ∈ code.instructions, (i.offset.toNat : Int) = offset
  | .boundary offset => code.length = .ok offset ∨ ∃ i ∈ code.instructions, i.offset.toNat = offset

/-- The instructions are as they are decoded, and offsets of the code lie on boundaries. -/
structure Regular (code : Code) : Prop where
  /-- Instructions record the positions that they are laid out at. -/
  recorded : Instruction.Recorded code.instructions
  admissible : ∀ i ∈ code.instructions, i.operands.Admissible
  branches : ∀ i ∈ code.instructions, ∀ o ∈ i.offsets, code.Lies o
  handlers : ∀ h ∈ code.handlers, h.startPc < h.endPc ∧ ∀ o ∈ h.offsets, code.Lies o

/-- Instructions that record their positions start before the end of the code. -/
theorem exists_length (h : Instruction.Recorded code.instructions) :
    ∃ n, code.length = .ok n ∧ ∀ i ∈ code.instructions, i.offset.toNat < n := by
  have ⟨placed, hlaid, hrec⟩ := h
  have henc := h.encode_eq_ok.2 ⟨placed, hlaid, rfl⟩
  obtain ⟨hinstructions, hchain⟩ := Instruction.layOut_eq_ok.1 hlaid
  refine ⟨_, by rw [length, henc]; rfl, ?_⟩
  rw [← hinstructions]
  refine List.forall_mem_map.2 fun p hp => ?_
  simpa [hrec p hp] using hchain.position_lt hp

/-- A map of the code has the offsets that lie in the code. -/
theorem lies_map (h : Instruction.Recorded code.instructions) :
    (code.map verify).Lies o ↔ code.Lies o := by
  obtain ⟨n, hlength, hlt⟩ := exists_length h
  have hmap : code.map verify =
      { CodeMap.ofInstructions n code.instructions verify
          with handlers := code.handlers.length } := by
    rw [map, hlength]
    rfl
  have hstart {m : Nat} : (code.map verify).isStart m = true ↔ ∃ i ∈ code.instructions,
      i.offset.toNat = m := by
    rw [hmap]
    refine (@CodeMap.isStart_ofInstructions code.instructions n verify m).trans ⟨And.right, ?_⟩
    rintro ⟨i, hi, rfl⟩
    exact ⟨hlt i hi, i, hi, rfl⟩
  cases o with
  | start offset =>
    cases offset with
    | ofNat m => exact hstart.trans (by simp [Lies])
    | negSucc m => simp [CodeMap.Lies, Lies, CodeMap.isStart]
  | boundary m =>
    refine or_congr ?_ hstart
    simp [hmap, hlength, CodeMap.ofInstructions, eq_comm]

/-- Regular code is admitted, whether its offsets are verified or not. -/
theorem Regular.admittedBy (h : code.Regular) (verify : Bool) : code.AdmittedBy verify where
  recorded := h.recorded
  admissible := h.admissible
  branches i hi o ho _ := (lies_map h.recorded).2 (h.branches i hi o ho)
  handlers e he := ⟨fun o ho _ => (lies_map h.recorded).2 ((h.handlers e he).2 o ho),
    fun _ => (h.handlers e he).1⟩

/-- Code that is admitted when its offsets are verified is regular. -/
theorem AdmittedBy.regular (h : code.AdmittedBy true) : code.Regular where
  recorded := h.recorded
  admissible := h.admissible
  branches i hi o ho := (lies_map h.recorded).1 (h.branches i hi o ho rfl)
  handlers e he := ⟨(h.handlers e he).nonempty rfl,
    fun o ho => (lies_map h.recorded).1 ((h.handlers e he).offsets o ho rfl)⟩

end Code

/-! ### Pools -/

namespace Constant

variable {constant : Constant}

/-- No high surrogate is directly followed by a low one, if the constant is a text. -/
def Joined : Constant → Prop
  | utf8 t => t.Joined
  | _ => True

instance : Decidable constant.Joined := by
  unfold Joined
  split <;> infer_instance

/-- A constant is read back from what is written for it exactly if it is joined. -/
theorem hasContent_content (hfits : constant.Fits) :
    constant.HasContent constant.content ↔ constant.Joined := by
  cases constant with
  | utf8 t => exact (and_iff_right hfits).trans ModifiedUtf8.decode_encode_eq_ok
  | _ => exact iff_of_true rfl trivial

/-- Where a constant is written stands no other spelling of it. -/
theorem HasContent.eq_content_of_append {content s t : Bytes} (h : constant.HasContent content)
    (hfits : constant.Fits)
    (happend : constant.storedAs constant.content ++ s = constant.storedAs content ++ t) :
    content = constant.content ∧ s = t := by
  cases constant with
  | utf8 text =>
    simp only [storedAs, payloadAs, List.append_assoc, List.append_cancel_left_eq] at happend
    obtain ⟨hcount, hrest⟩ := Reader.reads_u2.unique rfl rfl happend
    have hlength := congrArg UInt16.toNat hcount
    rw [UInt16.toNat_ofNat_of_lt' hfits, UInt16.toNat_ofNat_of_lt' h.1] at hlength
    obtain ⟨hcontent, hst⟩ := List.append_inj hrest hlength
    exact ⟨hcontent.symm, hst⟩
  | _ =>
    obtain rfl : content = [] := h
    exact ⟨rfl, List.append_cancel_left happend⟩

/-- Constants are read back from what is written for them exactly if all of them are joined. -/
theorem each_spelled_storedAs {constants : List Constant}
    (hfits : ∀ constant ∈ constants, constant.Fits) :
    Spelled.each constants (constants.flatMap fun constant => constant.storedAs constant.content) ↔
      ∀ constant ∈ constants, constant.Joined := by
  induction constants with
  | nil => simp
  | cons constant rest ih =>
    obtain ⟨hfit, hrest⟩ := List.forall_mem_cons.1 hfits
    rw [List.forall_mem_cons, ← ih hrest, ← hasContent_content hfit, List.flatMap_cons,
      Spelling.each_cons]
    constructor
    · rintro ⟨_, y, ⟨content, hcontent, rfl⟩, hy, happend⟩
      obtain ⟨rfl, rfl⟩ := hcontent.eq_content_of_append hfit happend
      exact ⟨hcontent, hy⟩
    · rintro ⟨hcontent, hy⟩
      exact ⟨_, _, ⟨_, hcontent, rfl⟩, hy, rfl⟩

end Constant

namespace ConstantPool

variable {pool : ConstantPool} {bytes : Bytes}

/-- No text of the pool has a high surrogate directly followed by a low one. -/
def Joined (pool : ConstantPool) : Prop := ∀ entry ∈ pool.entries, entry.2.Joined

instance : Decidable pool.Joined := inferInstanceAs (Decidable (∀ entry ∈ pool.entries, _))

/-- A pool is read back from what is written for it exactly if its texts are joined. -/
theorem WellFormed.spelled_of_write (h : pool.WellFormed) (hwrite : pool.write = .ok bytes) :
    pool.Spelled bytes ↔ pool.Joined := by
  obtain ⟨constants, hlaid⟩ := h.laidOut
  obtain ⟨hcount, hfits, rfl⟩ := hlaid.write_eq_ok.1 hwrite
  have hjoined : pool.Joined ↔ ∀ constant ∈ constants, constant.Joined := by
    rw [← hlaid.entries_eq, List.forall_mem_map, Joined]
  rw [hjoined, ← Constant.each_spelled_storedAs hfits]
  constructor
  · rintro ⟨constants', y, hlaid', -, hy, happend⟩
    obtain rfl := hlaid.entries_eq.symm.trans hlaid'.entries_eq
    rwa [List.append_cancel_left happend]
  · exact fun hy => ⟨constants, _, hlaid, hcount, hy, rfl⟩

end ConstantPool

/-! ### Class files -/

namespace ClassFile

variable {c : ClassFile} {options : ReadOptions} {bytes : Bytes}

/-- A class file is as the reader demands: other than what it refers to, attributes stand where
    they may, values of annotations are nested within the limit, and offsets of code lie on
    boundaries of its instructions. -/
structure Regular (c : ClassFile) : Prop where
  sound : c.Sound
  registered : ∀ p ∈ c.sites, p.2.Registered c.pool p.1.location
  nests : ∀ p ∈ c.sites, p.2.content.NestsWithin ElementValue.maxDepth
  codes : ∀ p ∈ c.sites, ∀ body, p.2.content = .code body → body.Regular
  /-- Offsets in the attributes of code are offsets of that code. -/
  offsets : ∀ p ∈ c.sites, ∀ code, p.1.code? = some code → ∀ o ∈ p.2.content.offsets, code.Lies o

/-- The code that an attribute is in is itself in an attribute of the class. -/
theorem recorded_of_mem_sites (h : ∀ p ∈ c.sites, ∀ body, p.2.content = .code body → body.Regular) :
    ∀ p ∈ c.sites, ∀ code, p.1.code? = some code → Instruction.Recorded code.instructions := by
  have hpass : Site.Passes (fun body => body.Regular) fun site =>
      ∀ code, site.code? = some code → Instruction.Recorded code.instructions :=
    ⟨fun hbody _ code hcode => by cases hcode; exact hbody.recorded, fun _ => nofun⟩
  obtain ⟨hfields, hmethods, hclass⟩ := forall_mem_sites.1 h
  refine forall_mem_sites.2 ⟨fun m hm => ?_, fun m hm => ?_, ?_⟩
  · exact NamedAttribute.forall_allSites hpass m.attributes nofun (hfields m hm)
  · exact NamedAttribute.forall_allSites hpass m.attributes nofun (hmethods m hm)
  · exact NamedAttribute.forall_allSites hpass c.attributes nofun hclass

/-- The type annotations of an attribute are annotated types of the class file. -/
theorem mem_annotatedTypes {p : Site × NamedAttribute} (hp : p ∈ c.sites) {t : TypeAnnotation}
    (ht : t ∈ p.2.content.annotatedTypes) : (p.1, t) ∈ c.annotatedTypes :=
  List.mem_flatMap.2 ⟨p, hp, List.mem_map.2 ⟨t, ht, rfl⟩⟩

/-- The information of type annotations is within its bounds. -/
theorem Sound.bounded (h : c.Sound) {p : Site × NamedAttribute} (hp : p ∈ c.sites)
    {t : TypeAnnotation} (ht : t ∈ p.2.content.annotatedTypes) :
    t.info.Bounded (p.1.surroundings c.pool options) := by
  have hmem := mem_annotatedTypes hp ht
  have hsite := siteOf_of_mem_sites p hp
  cases hinfo : t.info with
  | supertype index =>
    exact (h.supertypes _ hmem index hinfo).imp_right fun hlt => hlt.trans_eq hsite.1.symm
  | handler index =>
    obtain ⟨code, hcode, hlt⟩ := h.handlers _ hmem index hinfo
    exact ⟨_, Option.map_eq_some_iff.2 ⟨code, hcode, rfl⟩, hlt⟩
  | throws index =>
    -- Only methods declare exceptions, so there is a bound only in the attributes of one.
    have hlt := h.throws _ hmem index hinfo
    by_contra hlocation
    rw [hsite.2 hlocation] at hlt
    exact Nat.not_lt_zero _ hlt
  | _ => trivial

/-- In a regular class file each attribute is admitted. -/
theorem Regular.attribute (h : c.Regular) (options : ReadOptions) :
    ∀ p ∈ c.sites, p.2.AdmittedBy (p.1.surroundings c.pool options) := by
  intro p hp
  have hrefs : ∀ r ∈ p.2.references, r.Resolves c.pool := fun r hr =>
    h.sound.references r (List.mem_append_right _ (List.mem_flatMap.2 ⟨p, hp, hr⟩))
  obtain ⟨hname, hcontent⟩ := List.forall_mem_cons.1 hrefs
  refine ⟨Reference.resolves_required.1 hname, h.registered p hp,
    ⟨hcontent, fun o ho map hmap _ => ?_, h.nests p hp, fun t ht => ⟨?_, h.sound.bounded hp ht⟩⟩,
      fun body hbody => ?_⟩
  · obtain ⟨code, hcode, rfl⟩ := Option.map_eq_some_iff.1 hmap
    exact (Code.lies_map (recorded_of_mem_sites h.codes p hp code hcode)).2
      (h.offsets p hp code hcode o ho)
  · exact h.sound.targets _ (mem_annotatedTypes hp ht)
  · exact (h.codes p hp body hbody).admittedBy _

/-- A regular class file is admitted, whether its offsets are verified or not. -/
theorem Regular.admitted (h : c.Regular) (options : ReadOptions) : c.Admitted options := by
  have hrefs := h.sound.references
  simp only [references, List.forall_mem_append, List.forall_mem_flatMap] at hrefs
  obtain ⟨⟨hown, hfields, hmethods⟩, -⟩ := hrefs
  obtain ⟨hfieldSites, hmethodSites, hclass⟩ := forall_mem_sites.1 (h.attribute options)
  refine ⟨hown, fun m hm => ⟨hfields m hm, hfieldSites m hm, fun h => ?_⟩,
    fun m hm => ⟨hmethods m hm, hmethodSites m hm, fun _ a ha t ht index hinfo => ?_⟩, hclass,
      checkBootstrapIndices_eq_ok.2 h.sound.bootstraps⟩
  · cases h
  -- The exceptions that a method declares are counted where its own attributes stand.
  have hp : (m.site .method c.interfaces.length, a) ∈ c.sites := by
    simp only [sites, List.mem_append, List.mem_flatMap]
    exact Or.inl (Or.inr ⟨m, hm, NamedAttribute.mem_allSites ha⟩)
  exact h.sound.throws _ (mem_annotatedTypes hp ht) index hinfo

/-- A class file that is as the reader demands is read back from what is written for it exactly if
    its texts are joined. -/
theorem ofBytes_toBytes (options : ReadOptions) (hpool : c.pool.Built) (hregular : c.Regular)
    (hwrite : c.toBytes = .ok bytes) : ofBytes options bytes = .ok c ↔ c.pool.Joined := by
  obtain ⟨x, hx, y, hy, rfl⟩ := toBytes_eq_ok.1 hwrite
  rw [← hpool.wellFormed.spelled_of_write hx, ofBytes_eq_ok]
  constructor
  · rintro ⟨x', y', hspelled, -, hy', -, happend⟩
    obtain rfl : y = y' := by simpa [hy] using hy'
    rwa [List.append_cancel_right (List.append_cancel_left happend)]
  · exact fun hspelled => ⟨x, y, hspelled, hpool.wellFormed.resolved, hy,
      hregular.admitted options, rfl⟩

/-- A class file that is as the reader demands is read back from what is written for it, equal in
    every field, if no text of its pool has a high surrogate directly followed by a low one. -/
theorem ofBytes_of_toBytes (options : ReadOptions) (hpool : c.pool.Built) (hregular : c.Regular)
    (hjoined : c.pool.Joined) (hwrite : c.toBytes = .ok bytes) : ofBytes options bytes = .ok c :=
  (ofBytes_toBytes options hpool hregular hwrite).2 hjoined

/-- A class file that is admitted when offsets are verified is regular, so all that is asked of a
    class file that is written holds of one that was read. -/
theorem Admitted.regular (h : c.Admitted {}) (hpool : c.pool.Resolved) : c.Regular where
  sound := h.sound hpool
  registered p hp := (h.forall_sites p hp).registered
  nests p hp := (h.forall_sites p hp).content.nests
  codes p hp body hbody := ((h.forall_sites p hp).code body hbody).regular
  offsets := by
    have hcodes : ∀ p ∈ c.sites, ∀ body, p.2.content = .code body → body.Regular :=
      fun p hp body hbody => ((h.forall_sites p hp).code body hbody).regular
    intro p hp code hcode o ho
    have hlies :=
      (h.forall_sites p hp).content.offsets o ho (code.map true)
      (by simp [Site.surroundings, hcode]) rfl
    exact (Code.lies_map (recorded_of_mem_sites hcodes p hp code hcode)).1 hlies

/-! ### A class file that is read back, and one that is not -/

/-- The class is regular. -/
theorem regular_thrower : thrower.Regular := by
  obtain ⟨-, -, -, hresolved, -, hadmitted, -⟩ := ofBytes_eq_ok.1 ofBytes_thrower
  exact hadmitted.regular hresolved

/-- The class is read back from its bytes. -/
theorem ofBytes_of_toBytes_thrower :
    thrower.toBytes = .ok throwerBytes ∧ ofBytes {} throwerBytes = .ok thrower :=
  ⟨toBytes_thrower, ofBytes_of_toBytes {} built_thrower regular_thrower (by decide) toBytes_thrower⟩

/-- A class file with a text that is a high surrogate and a low one. -/
def surrogates : ClassFile :=
  { empty with
    pool := ⟨#[none, some (.ofString "A"), some (.classref 1), some (.utf8 [0xD800, 0xDC00])]⟩
    thisClass := 2 }

/-- The bytes of `surrogates`. -/
def surrogatesBytes : Bytes :=
  [0xCA, 0xFE, 0xBA, 0xBE, 0, 0, 0, 0,
    0, 4, 1, 0, 1, 65, 7, 0, 1, 1, 0, 6, 0xED, 0xA0, 0x80, 0xED, 0xB0, 0x80,
    0, 0, 0, 2, 0, 0, 0, 0, 0, 0, 0, 0, 0, 0]

/-- Halves of a pair that stand side by side are as regular as any text. -/
theorem regular_surrogates : surrogates.Regular := by
  have hadmitted : surrogates.Admitted {} := ⟨by decide, nofun, nofun, nofun, rfl⟩
  exact hadmitted.regular (ConstantPool.validate_eq_ok.1 rfl)

/-- The two surrogates are read back as one code point. -/
theorem not_ofBytes_of_toBytes : ¬∀ (c : ClassFile) (bytes : Bytes), c.pool.Built → c.Regular →
    c.toBytes = .ok bytes → ofBytes {} bytes = .ok c := by
  intro h
  have hbuilt : surrogates.pool.Built :=
    .push (.push (.push .empty (c := .ofString "A") (by rfl)) (c := .classref 1) (by rfl))
      (c := .utf8 [0xD800, 0xDC00]) (by rfl)
  have hread : ofBytes {} surrogatesBytes = .ok { surrogates with
      pool := ⟨#[none, some (.ofString "A"), some (.classref 1), some (.utf8 [0x10000])]⟩ } := by
        cbv
  have hkept := h surrogates surrogatesBytes hbuilt regular_surrogates (by cbv)
  have hpool := congrArg (Except.map ClassFile.pool) (hread.symm.trans hkept)
  revert hpool
  decide

end ClassFile

end ClassFormat
