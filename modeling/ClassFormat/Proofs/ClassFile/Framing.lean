import Mathlib
import ClassFormat.Proofs.Attribute.Framing
import ClassFormat.Proofs.ClassFile.Soundness
import ClassFormat.Proofs.ConstantPool.Joining
import ClassFormat.Proofs.Instruction.Framing

/-!
# Class files, divided as they were written

Whatever is written for a class file, the reader divides it alike: at every level it takes the
counts and the lengths for what the writer meant by them, and no byte is missing or left over. What
it refuses, it refuses for what is said. Only the bytes of an attribute that is not decoded are
beyond the control of the writer, so none of these may have a name under which they would be
decoded.

* `NamedAttribute.frames_read`: attributes, whatever decodes their bodies;
* `Code.frames_read`, `RecordComponent.frames_read`, `Attribute.frames_readList`: what holds
  attributes;
* `Member.frames_read`, `ClassFile.fills_read`: members and class files;
* `ClassFile.ofBytes_toBytes_framed`: reading what was written succeeds or fails for contents.
-/

namespace ClassFormat

open Reader

/-- The attributes that are not decoded have no name under which they would be. -/
def OthersKept (pool : ConstantPool) (sites : List (Site × NamedAttribute)) : Prop :=
  ∀ p ∈ sites, p.2.content.kind? = none → p.2.Registered pool p.1.location

variable {pool : ConstantPool} {s : Surroundings} {x : Bytes}

/-- The names of all kinds are of characters that need no surrogates. -/
theorem Attribute.Kind.forall_name_lt (kind : Kind) :
    ∀ c ∈ Text.ofString kind.name, c.val < 0x10000 := by
  have h : ((Text.ofString kind.name).all fun c => c.val < 0x10000) = true := by
    cases kind <;> decide
  simpa only [List.all_eq_true, decide_eq_true_eq] using h

/-! ### Attributes -/

namespace NamedAttribute

variable {a : NamedAttribute}

/-- Failures for contents are not said to be of too short a body. -/
theorem tooShort_of_contents {kind : Attribute.Kind} {declared : UInt32} {start : Nat} {f : Failure}
    (h : f.OfContents) : (tooShort kind declared start f).OfContents := by
  unfold tooShort
  split
  next htruncated => exact (h.not_truncated _ _ _ htruncated).elim
  next => exact h

/-- A body is divided as it was written, or is refused for what it says. -/
theorem frames_readBody {kind : Attribute.Kind} {declared : UInt32} {start : Nat}
    {decode : Reader Attribute} (h : decode.Fills x) :
    (readBody kind declared start x decode).Frames [] :=
  .mapFailure (h.confined start fun _ => .pure _) fun _ => tooShort_of_contents

/-- An attribute is divided as it was written, if that holds of the bodies that are decoded. -/
theorem frames_read {decode : Attribute.Kind → Reader Attribute} (halike : pool.Alike s.pool)
    (hwrite : a.write pool = .ok x)
    (hother : a.content.kind? = none → a.Registered s.pool s.location)
    (hdecode : ∀ kind body, a.content.kind? = some kind → s.location ∈ kind.locations →
      a.content.write pool = .ok body → (decode kind).Fills body) : (read s decode).Frames x := by
  obtain ⟨hcheck, body, hbody, hlength, rfl⟩ := write_eq_ok.1 hwrite
  refine .offset fun offset => .next reads_u2 rfl <| .checked (s.pool.judges_text _).inside
    fun name hname => .next reads_u4 rfl <| .offset fun start => .last (reads_bytes _).within
      ⟨rfl, (UInt32.toNat_ofNat_of_lt' hlength).symm⟩ ?_
  have hget := (ConstantPool.text_eq_ok.1 (inside_eq_ok.1 hname)).2
  have hlog (event : Log.Event) (b : NamedAttribute) :
      Reader.Frames (do Reader.log event; return b) [] :=
      .next (a := ()) (Reads.log _) rfl (.pure _)
  split
  next => exact hlog _ _
  next kind hkind =>
    obtain rfl := Attribute.Kind.ofName?_eq_some.1 hkind
    split
    next hlocation =>
      refine .next (a := ()) (Reads.log _) rfl (.map (.within (frames_readBody ?_)))
      -- The name is that of the kind of the attribute, as others have no such name.
      rw [checkName_eq_ok] at hcheck
      cases hown : a.content.kind? with
      | some kind' =>
        rw [hown] at hcheck
        have hget' := halike.text (Text.joined_ofString kind'.name) hcheck
        have htext : Text.ofString kind'.name = Text.ofString kind.name := by
          simpa [hget] using hget'.symm
        rw [← htext, Attribute.Kind.ofName?_eq_some.2 rfl] at hkind
        cases hkind
        exact hdecode kind body hown hlocation hbody
      | none =>
        have hregistered := hother hown
        rw [Registered, hown] at hregistered
        exact absurd hlocation (hregistered kind (ConstantPool.holdsText_iff.2 hget))
    next => exact hlog _ _

end NamedAttribute

/-- The attributes of code and of components are divided as they were written. -/
theorem Attribute.frames_readInnerList {attributes : List NamedAttribute}
    (halike : pool.Alike s.pool) (hinner : s.location = .code ∨ s.location = .recordComponent)
    (hwrite : writeList pool attributes = .ok x)
    (hothers : ∀ a ∈ attributes, a.content.kind? = none → a.Registered s.pool s.location) :
    (readInnerList s).Frames x := by
  rw [writeList_eq_table] at hwrite
  refine .table (fun _ a ha y hy => NamedAttribute.frames_read halike hy (hothers a ha)
    fun kind body hkind hlocation hbody => ?_) hwrite
  obtain ⟨hcode, hrecord⟩ := Kind.ne_of_inner hinner hlocation
  exact fills_readLeaf s pool hkind hcode hrecord hbody

/-! ### Code -/

/-- Handlers are judged by their ranges and starts. -/
theorem ExceptionHandler.judges_check (map : CodeMap) (h : ExceptionHandler) :
    Judges (h.check map) :=
  .refuse id <| (map.judges_requireStart _ _).bind fun _ => (map.judges_requireEnd _ _).bind
    fun _ => map.judges_requireStart _ _

/-- Handlers are divided as they were written, each of eight bytes. -/
theorem ExceptionHandler.frames_readTable (map : CodeMap) {handlers : List ExceptionHandler}
    (h : writeTable handlers = .ok x) : (readTable pool map).Frames x := by
  refine .plainTable (fun _ handler => .within ?_) h
  simp only [write, List.append_assoc]
  exact .next reads_u2 rfl <| .next reads_u2 rfl <| .next reads_u2 rfl <|
    .bind_nil (pool.frames_optionalIndex _ _) fun _ => .check (judges_check map _) fun _ => .pure _

/-- The length of code is judged, not what there is of it. -/
theorem Code.judges_checkLength (length : Nat) : Judges (checkLength length) := .refuse id (.ok ())

/-- Code is divided as it was written. -/
theorem Code.frames_read {code : Code} (halike : pool.Alike s.pool)
    (hwrite : code.write pool = .ok x)
    (hothers : ∀ a ∈ code.attributes, a.content.kind? = none → a.Registered s.pool .code) :
    (read s).Frames x := by
  obtain ⟨y, hy, hcheck, z, hz, w, hw, rfl⟩ := write_eq_ok.1 hwrite
  have hlength : (UInt32.ofNat y.length).toNat = y.length :=
    UInt32.toNat_ofNat_of_lt' (lt_of_le_of_lt (checkLength_eq_ok.1 hcheck).2 (by decide))
  refine .next reads_u2 rfl <| .next reads_u2 rfl <| .next reads_u4 rfl ?_
  rw [hlength]
  refine .check (judges_checkLength _) fun _ => .bind (Instruction.frames_decode s.pool hy)
    fun instructions => .check (CodeMap.judges_requireAllTargets _ _) fun _ =>
    .bind (ExceptionHandler.frames_readTable _ hz) fun _ => ?_
  exact (Attribute.frames_readInnerList (s := s.inCode _) halike (Or.inl rfl) hw hothers).map

/-! ### Record components -/

/-- A component is divided as it was written, or is refused for what it says. -/
theorem RecordComponent.frames_read {component : RecordComponent} (halike : pool.Alike s.pool)
    (hwrite : component.write pool = .ok x)
    (hothers : ∀ a ∈ component.attributes, a.content.kind? = none →
      a.Registered s.pool .recordComponent) : (read s).Frames x := by
  obtain ⟨z, hz, rfl⟩ := write_eq_ok.1 hwrite
  refine .next reads_u2 rfl <| .next reads_u2 rfl <| .check (s.pool.judges_text _) fun _ =>
    .check (s.pool.judges_require _ _) fun _ => ?_
  exact (Attribute.frames_readInnerList (s := s.moveTo .recordComponent) halike
    (Or.inr rfl) hz hothers).within.map

/-! ### Attributes of classes, fields and methods -/

namespace Attribute

variable {site : Site} {attributes : List NamedAttribute}

/-- The contents of every kind are divided as they were written. -/
theorem fills_read {kind : Kind} {a : Attribute} (halike : pool.Alike s.pool)
    (hkind : a.kind? = some kind) (hwrite : a.write pool = .ok x)
    (hothers : OthersKept s.pool (a.sites site)) : (read s kind).Fills x := by
  unfold read
  split
  next =>
    obtain ⟨body, rfl⟩ := kind?_eq_some.1 hkind
    rw [write] at hwrite
    rw [sites, Code.sites_eq] at hothers
    exact (Code.frames_read halike hwrite fun a ha =>
      hothers _ (NamedAttribute.mem_allSites ha)).fills.map
  next =>
    obtain ⟨components, rfl⟩ := kind?_eq_some.1 hkind
    rw [write_record] at hwrite
    rw [sites, RecordComponent.allSites_eq_flatMap] at hothers
    refine (Frames.table (fun _ component hc y hy => ?_) hwrite).fills.map
    exact RecordComponent.frames_read halike hy fun a ha =>
      hothers _ (List.mem_flatMap.2 ⟨component, hc, NamedAttribute.mem_allSites ha⟩)
  next hcode hrecord => exact fills_readLeaf s pool hkind hcode hrecord hwrite

/-- The attributes of a class, a field or a method are divided as they were written. -/
theorem frames_readList (halike : pool.Alike s.pool) (hsite : site.location = s.location)
    (hwrite : writeList pool attributes = .ok x)
    (hothers : OthersKept s.pool (NamedAttribute.allSites site attributes)) :
    (readList s).Frames x := by
  rw [writeList_eq_table] at hwrite
  refine .table (fun _ a ha y hy => NamedAttribute.frames_read halike hy ?_
    fun kind body hkind _ hbody => ?_) hwrite
  · exact hsite ▸ hothers _ (NamedAttribute.mem_allSites ha)
  · have hinner : OthersKept s.pool (a.content.sites site) := fun p hp => hothers p <| by
      rw [NamedAttribute.allSites_eq_flatMap, List.mem_flatMap]
      exact ⟨a, ha, a.sites_eq site ▸ List.mem_cons_of_mem _ hp⟩
    exact fills_read halike hkind hbody hinner

/-- Exceptions that are counted wrongly are a fault of contents. -/
theorem judges_checkThrows (attributes : List NamedAttribute) :
    Judges (checkThrows attributes) := by
  refine .forM fun a _ => ?_
  split
  · refine .forM fun t _ => ?_
    split
    · exact .refuse id (.ok ())
    · exact .ok ()
  · exact .ok ()

end Attribute

/-! ### Members -/

/-- A field or a method is divided as it was written, or is refused for what it says. -/
theorem Member.frames_read {m : Member} {location : Location} {interfaces : Nat}
    {options : ReadOptions} {pool' : ConstantPool} (halike : pool.Alike pool')
    (hwrite : m.write pool = .ok x) (hothers : OthersKept pool' (m.sites location interfaces)) :
    (read ⟨pool', options, location, interfaces, none⟩).Frames x := by
  obtain ⟨z, hz, rfl⟩ := write_eq_ok.1 hwrite
  refine .next reads_u2 rfl <| .next reads_u2 rfl <| .next reads_u2 rfl <|
    .check (pool'.judges_text _) fun _ =>
    .check (pool'.judges_text _) fun _ => .next (a := ()) (Reads.log _) rfl <| .map <| .within <|
      .bind_nil (Attribute.frames_readList halike rfl hz hothers) fun attributes => ?_
  split
  · exact .check (Attribute.judges_checkThrows attributes) fun _ => .pure _
  · exact .pure _

/-! ### Class files -/

namespace ClassFile

variable {c : ClassFile} {options : ReadOptions} {bytes : Bytes}

/-- A bootstrap method that is not there is a fault of contents. -/
theorem judges_checkBootstrapIndices (c : ClassFile) : Judges c.checkBootstrapIndices := by
  have hcheck (index bootstrap : UInt16) : Judges (if c.bootstrapCount ≤ bootstrap.toNat then
      Failure.inside (.inDynamicConstant index)
        (Fault.bootstrapMethod bootstrap c.bootstrapCount).raise
        else .ok () : Except Failure Unit) := by
    split
    · exact .inside (.raise trivial)
    · exact .ok ()
  refine .forM fun entry _ => ?_
  dsimp only
  split
  · exact hcheck ..
  · exact hcheck ..
  · exact .ok ()

/-- The members and attributes of a class are divided as they were written. -/
theorem frames_readParts (halike : c.pool.Alike pool) {f m a : Bytes}
    (hfields : Writer.table (Member.write c.pool) c.fields = .ok f)
    (hmethods : Writer.table (Member.write c.pool) c.methods = .ok m)
    (hattributes : Attribute.writeList c.pool c.attributes = .ok a)
    (hothers : OthersKept pool c.sites) :
    (readParts pool options c.interfaces.length).Frames (f ++ (m ++ a)) := by
  obtain ⟨hf, hm, ha⟩ := forall_mem_sites.1 hothers
  have hlist : (Attribute.readList ⟨pool, options, .classFile, c.interfaces.length,
      none⟩).Frames a :=
    Attribute.frames_readList halike rfl hattributes ha
  exact .bind (.table (fun _ m hmem _ hx => Member.frames_read halike hx (hf m hmem)) hfields)
    fun _ => .bind (.table (fun _ m hmem _ hx => Member.frames_read halike hx (hm m hmem)) hmethods)
    fun _ => hlist.map

/-- Nothing is left when a class file has been read. -/
theorem fills_finish (c : ClassFile) : c.finish.Fills [] where
  run {cursor} hc := by
    have hbootstrap : Reader.Frames (do c.checkBootstrapIndices; return c) [] :=
      .check c.judges_checkBootstrapIndices fun _ => .pure c
    rw [finish, get_bind, hc]
    exact hbootstrap.fills.run hc

/-- What is written for a class file behind its pool is divided alike with any pool in its place. -/
theorem fills_readBody (halike : c.pool.Alike pool) {y : Bytes} (hbody : c.body = .ok y)
    (hothers : OthersKept pool c.sites) :
    (readBody options c.minorVersion c.majorVersion pool).Fills y := by
  obtain ⟨i, hi, f, hf, m, hm, a, ha, rfl⟩ := body_eq_ok.1 hbody
  refine .next reads_u2 rfl <| .next reads_u2 rfl <| .check (pool.judges_className _).inside
    fun name => .next reads_u2 rfl <| .check (pool.judges_requireOptional _ _).inside fun _ =>
      .bind_reads (pool.frames_indexTable _ hi).within (pool.inverts_indices .classref).within
        fun interfaces hinterfaces => ?_
  obtain ⟨rfl, -⟩ := Writer.unambiguous_indices _ hinterfaces.1 hi (rfl : i ++ [] = i ++ [])
  have hparts : (within (.inClass name) (readParts pool options c.interfaces.length)).Frames
      (f ++ (m ++ a)) :=
    (frames_readParts halike hf hm ha hothers).within
  simpa using Fills.bind hparts fun parts => fills_finish _

/-- What is written for a class file is divided alike when it is read. -/
theorem fills_read {bytes : Bytes} (hpool : c.pool.Built) (hothers : OthersKept c.pool.join c.sites)
    (hwrite : c.toBytes = .ok bytes) : (read options).Fills bytes := by
  obtain ⟨x, hx, y, hy, rfl⟩ := toBytes_eq_ok.1 hwrite
  have hwell := hpool.wellFormed
  rw [read_eq, head]
  simp only [List.append_assoc]
  exact .next reads_u4 rfl <| .unless (b := ()) (not_not.2 rfl) <| .next reads_u2 rfl <|
    .next reads_u2 rfl <| .next ConstantPool.reads_read.within ⟨hwell.spelled_join hx,
    hwell.resolved_join⟩ <| .next (a := ()) (x := []) (Reads.log _) rfl <|
    fills_readBody c.pool.alike_join hy hothers

/-- Joining the texts of the pool gives no attribute a name under which it is decoded. -/
theorem othersKept_join (h : OthersKept c.pool c.sites) : OthersKept c.pool.join c.sites := by
  intro p hp hkind
  have hregistered := h p hp hkind
  rw [NamedAttribute.Registered, hkind] at hregistered ⊢
  intro kind hholds
  refine hregistered kind ?_
  rw [ConstantPool.holdsText_iff] at hholds ⊢
  exact ConstantPool.text_of_join kind.forall_name_lt hholds

/-- Reading what was written for a class file succeeds, or fails for what is said in it: an index
    that does not resolve, a bad attribute, a misplaced type annotation, or a bootstrap method that
    is not there. It does not fail for how the bytes are divided, unless an attribute that is not
    decoded would be under its name. -/
theorem ofBytes_toBytes_framed (hpool : c.pool.Built)
    (hothers : ∀ p ∈ c.sites, p.2.content.kind? = none → p.2.Registered c.pool p.1.location)
    (hwrite : c.toBytes = .ok bytes) (options : ReadOptions) :
    (∃ c', ofBytes options bytes = .ok c') ∨
      ∃ f fault, ofBytes options bytes = .error f ∧ f.fault? = some fault ∧ fault.OfContents := by
  have hread : (read options).Fills bytes := fills_read hpool (othersKept_join hothers) hwrite
  rcases hread.run (c := .start bytes) rfl with ⟨c', cursor, h, -⟩
    | ⟨f, cursor, h, fault, hfault, hcontents⟩
  · exact Or.inl ⟨c', ofBytes_ok_iff.2 ⟨cursor, h⟩⟩
  · exact Or.inr ⟨f, fault, ofBytes_error_iff.2 ⟨cursor, h⟩, hfault, hcontents⟩

/-- A class whose superclass is no class, with an attribute of an unknown kind. -/
def orphan : ClassFile := { thrower with superClass := 3, attributes := [⟨1, .other [7]⟩] }

/-- The attribute of the class that is not decoded has a name that no kind has. -/
theorem othersKept_orphan : OthersKept orphan.pool orphan.sites := by
  refine forall_mem_sites.2 ⟨nofun, fun m hm p hp hkind => ?_, fun p hp _ => ?_⟩
  · -- The method has nothing but code.
    obtain rfl := List.mem_singleton.1 hm
    simp [Member.sites, NamedAttribute.allSites, NamedAttribute.sites, Attribute.sites,
      Code.sites] at hp
    subst hp
    cases hkind
  · simp [orphan, NamedAttribute.allSites, NamedAttribute.sites, Attribute.sites] at hp
    subst hp
    intro kind
    cases kind <;> decide

/-- The bytes of `orphan`. -/
def orphanBytes : Bytes := (throwerBytes.set 35 3).dropLast ++ [1, 0, 1, 0, 0, 0, 1, 7]

/-- The class is written, and is refused for what it says. -/
theorem ofBytes_toBytes_framed_orphan : orphan.toBytes = .ok orphanBytes ∧
    ∃ f fault, ofBytes {} orphanBytes = .error f ∧ f.fault? = some fault ∧ fault.OfContents := by
  have hwrite : orphan.toBytes = .ok orphanBytes := by cbv
  refine ⟨hwrite, ?_⟩
  rcases ofBytes_toBytes_framed (c := orphan) built_thrower othersKept_orphan hwrite {}
    with ⟨c', h⟩ | h
  · have hrefused : (ofBytes {} orphanBytes).toOption.isNone = true := by cbv
    rw [h] at hrefused
    cases hrefused
  · exact h

end ClassFile

end ClassFormat
