import Mathlib
import ClassFormat.Proofs.Attribute.Accounting
import ClassFormat.Proofs.ClassFile.Framing
import ClassFormat.Proofs.ClassFile.Truncation

/-!
# What failures of class files tell

Every failure to read a class file has a fault, and what the fault tells of the bytes is so. The
body of an attribute is only a part of the file: where it ends, the attribute is too short, and the
end of the file has no say in that.

* `NamedAttribute.settles_readBody`: bodies of attributes, where failures are settled;
* `NamedAttribute.reports_read`, `Code.reports_read`, `Member.reports_read`: what holds attributes;
* `ClassFile.reports_read`: class files.
-/

namespace ClassFormat

open Reader

variable {f : Failure} (s : Surroundings)

/-! ### Attributes -/

namespace NamedAttribute

/-- A body that runs out of bytes is shorter than what it is asked for. -/
theorem settled_tooShort {kind : Attribute.Kind} {declared : UInt32} {start : Nat}
    (h : f.Accounts (start + declared.toNat)) : (tooShort kind declared start f).Settled := by
  unfold tooShort
  split
  next offset needed available hfault =>
    obtain ⟨fault, hfault', haccounts⟩ := h
    obtain rfl : fault = .truncated offset needed available := by simpa [hfault] using hfault'.symm
    obtain ⟨hend, hlt⟩ := haccounts
    intro limit
    refine ⟨_, Failure.fault?_because _ _, ?_⟩
    rw [Fault.Accounts]
    omega
  next hnot => exact h.settled hnot

variable {kind : Attribute.Kind} {declared : UInt32} {start : Nat} {body : Bytes}

/-- A body of the declared length is too short, or something is left over of it, or it says
    something that is wrong; the end of the file has no say in that. -/
theorem settles_readBody {decode : Reader Attribute} (hdecode : decode.Reports)
    (hlength : body.length = declared.toNat) :
    (readBody kind declared start body decode).Settles := by
  refine ⟨fun {c f c'} h => ?_⟩
  obtain ⟨e, he, rfl⟩ := error_of_mapFailure h
  refine settled_tooShort ?_
  rcases error_of_bind he with hbody | ⟨⟨content, left⟩, c₁, hbody, hleft⟩
  · obtain ⟨inner, hinner⟩ := error_of_confined hbody
    rw [← hlength]
    exact hdecode.tells hinner
  · obtain ⟨inner, hinner, rfl, rfl⟩ := confined_eq_ok.1 hbody
    obtain ⟨x, past⟩ := hdecode.takes hinner
    dsimp only at hleft
    split at hleft
    next hne =>
      cases hleft
      refine ⟨_, rfl, ?_⟩
      -- The body is what was decoded, and then what is left of it.
      have hrest : body = x ++ inner.rest := past.rest
      have hpositive : 0 < inner.rest.length := by
        rw [List.length_pos_iff]
        simpa using hne
      have hsum := congrArg List.length hrest
      rw [List.length_append] at hsum
      rw [Fault.Accounts]
      omega
    next => cases hleft

/-- What is made of the body of an attribute, once all of it has been taken. -/
def decodeBody (decode : Attribute.Kind → Reader Attribute) (nameIndex : UInt16) (name : Text)
    (offset : Nat) (length : UInt32) (start : Nat) (body : Bytes) : Reader NamedAttribute :=
  match Attribute.Kind.ofName? name with
  | none => do
    Reader.log (.unknown name length offset)
    return ⟨nameIndex, .other body⟩
  | some kind => do
    if s.location ∈ kind.locations then
      Reader.log (.decoding kind length offset)
      let content ← Reader.within (.readingAttribute kind offset)
        (readBody kind length start body (decode kind))
      return ⟨nameIndex, content⟩
    else
      Reader.log (.misplaced kind offset s.location)
      return ⟨nameIndex, .other body⟩

/-- An attribute is read in two parts: the bytes of its body, and what is decoded from these. -/
theorem read_eq (decode : Attribute.Kind → Reader Attribute) : read s decode = (do
    let offset ← Reader.offset
    let nameIndex ← Reader.u2
    let name ← Failure.inside (.readingAttributeName offset) (s.pool.text nameIndex)
    let length ← Reader.u4
    let start ← Reader.offset
    let body ← Reader.within (.readingAttributeBody name offset) (Reader.bytes length.toNat)
    decodeBody s decode nameIndex name offset length start body) := rfl

variable {decode : Attribute.Kind → Reader Attribute} {nameIndex : UInt16}
  {name : Text} {offset : Nat}

/-- To decode a body takes nothing more. -/
theorem still_decodeBody :
    (decodeBody s decode nameIndex name offset declared start body).Still := by
  unfold decodeBody
  split
  · exact (Still.log _).bind fun _ => .pure _
  · split
    · exact (Still.log _).bind fun _ => .bind (.mapFailure (still_readBody ..)) fun _ => .pure _
    · exact (Still.log _).bind fun _ => .pure _

/-- What fails within a body is settled: if it is the length of the body that is wrong, it tells
    both lengths. -/
theorem settles_decodeBody (hdecode : ∀ kind, (decode kind).Reports)
    (hlength : body.length = declared.toNat) :
    (decodeBody s decode nameIndex name offset declared start body).Settles := by
  have hkept (event : Log.Event) (a : NamedAttribute) : Settles (do Reader.log event; return a) :=
    (Settles.log event).bind fun _ _ _ _ => .pure a
  unfold decodeBody
  split
  next => exact hkept _ _
  next kind _ =>
    split
    next =>
      have hbody : (readBody kind declared start body (decode kind)).Settles :=
        settles_readBody (hdecode kind) hlength
      exact (Settles.log _).bind fun _ _ _ _ => hbody.within.bind fun _ _ _ _ => .pure _
    next => exact hkept _ _

/-- An attribute accounts for the bytes, if whatever decodes its body does so for the body. -/
theorem reports_read (hdecode : ∀ kind, (decode kind).Reports) : (read s decode).Reports := by
  rw [read_eq]
  refine .offset fun offset => reports_u2.bind fun _ =>
    (Reports.check (s.pool.judges_text _).inside).bind fun name =>
    reports_u4.bind fun length => .offset fun start => (reports_bytes _).within.bind_ok
    fun body c c' hbody => ?_
  obtain ⟨x, ⟨rfl, hlength⟩, -⟩ := (reads_bytes _).sound (mapFailure_eq_ok.1 hbody)
  exact Settles.reports (settles_decodeBody s hdecode hlength) (still_decodeBody s)

theorem reports_readList (hdecode : ∀ kind, (decode kind).Reports) :
    (readList s decode).Reports := .table fun _ => reports_read s hdecode

end NamedAttribute

/-- A list of attributes in another one fails as one of them does. -/
theorem Attribute.reports_readInnerList : (readInnerList s).Reports :=
  NamedAttribute.reports_readList s fun kind => reports_readLeaf s kind

/-! ### What holds attributes -/

/-- Handlers fail for want of bytes, for their ranges, or for the classes that they catch. -/
theorem ExceptionHandler.reports_readTable (pool : ConstantPool) (map : CodeMap) :
    (readTable pool map).Reports :=
  .table fun _ => .within <| reports_u2.bind fun _ => reports_u2.bind fun _ =>
    reports_u2.bind fun _ => (pool.reports_optionalIndex _).bind fun _ =>
    (Reports.check (judges_check map _)).bind fun _ => .pure _

/-- Code fails for its length, for its instructions, for its handlers, or for its attributes. -/
theorem Code.reports_read : (read s).Reports :=
  reports_u2.bind fun _ => reports_u2.bind fun _ => reports_u4.bind fun _ =>
    (Reports.check (judges_checkLength _)).bind fun _ => (Instruction.reports_decode _ _).bind
      fun _ => (Reports.check (CodeMap.judges_requireAllTargets _ _)).bind fun _ =>
        (ExceptionHandler.reports_readTable _ _).bind fun _ =>
        (Attribute.reports_readInnerList _).map

/-- A component fails for what it refers to, or for one of its attributes. -/
theorem RecordComponent.reports_read : (read s).Reports :=
  reports_u2.bind fun _ => reports_u2.bind fun _ => (Reports.check (s.pool.judges_text _)).bind
    fun _ => (Reports.check (s.pool.judges_require _ _)).bind fun _ =>
    (Attribute.reports_readInnerList _).within.map

namespace Attribute

/-- The contents of an attribute fail as they do for its kind. -/
theorem reports_read (kind : Kind) : (read s kind).Reports := by
  unfold read
  split
  · exact (Code.reports_read s).map
  · exact (Reports.table fun _ => RecordComponent.reports_read s).map
  · exact reports_readLeaf s kind

theorem reports_readList : (readList s).Reports :=
  NamedAttribute.reports_readList s (reports_read s)

end Attribute

/-- A field or a method fails for what it refers to, for its attributes, or for exceptions that they
    count wrongly. -/
theorem Member.reports_read : (read s).Reports := by
  refine reports_u2.bind fun _ => reports_u2.bind fun _ => reports_u2.bind fun _ =>
    (Reports.check (s.pool.judges_text _)).bind fun _ => (Reports.check (s.pool.judges_text _)).bind
      fun _ => (Reports.log _).bind fun _ => .map <| .within <| (Attribute.reports_readList s).bind
      fun attributes => ?_
  split
  · exact (Reports.check (Attribute.judges_checkThrows attributes)).bind fun _ => .pure _
  · exact .pure _

/-! ### Class files -/

namespace ClassFile

/-- The members and attributes of a class fail one after another. -/
theorem reports_parts (pool : ConstantPool) (options : ReadOptions) (interfaces : Nat) :
    (readParts pool options interfaces).Reports :=
  (Reports.table fun _ => Member.reports_read _).bind fun _ =>
    (Reports.table fun _ => Member.reports_read _).bind fun _ => (Attribute.reports_readList _).map

/-- What is checked at the end tells only that there is something left, or which bootstrap method is
    missing. -/
theorem settles_finish (c : ClassFile) : c.finish.Settles where
  tells {cursor f cursor'} h := by
    rw [finish, get_bind] at h
    split at h
    · cases h
      exact Fault.settled fun _ => trivial
    · exact (Settles.bind (.check c.judges_checkBootstrapIndices) fun _ _ _ _ => .pure c).tells h

/-- A class file fails after its pool for what it refers to, or as one of its parts does. -/
theorem reports_readBody (options : ReadOptions) (minor major : UInt16) (pool : ConstantPool) :
    (readBody options minor major pool).Reports :=
  reports_u2.bind fun _ => reports_u2.bind fun _ =>
    (Reports.check (pool.judges_className _).inside).bind fun _ =>
    reports_u2.bind fun _ => (Reports.check (pool.judges_requireOptional _ _).inside).bind fun _ =>
      (pool.reports_indices _).within.bind fun interfaces =>
        (reports_parts pool options interfaces.length).within.bind fun ⟨_, _, _⟩ =>
        (settles_finish _).reports (still_finish _)

/-- A class file fails for its magic number, for its pool, or for what follows the pool. -/
theorem reports_read (options : ReadOptions) : (read options).Reports := by
  rw [read_eq]
  exact reports_u4.bind fun _ => .refuse (b := ()) (fun _ => trivial) <|
    reports_u2.bind fun minor =>
    reports_u2.bind fun major => ConstantPool.reports_read.within.bind fun pool =>
      (Reports.log _).bind fun _ => reports_readBody options minor major pool

end ClassFile

/-! ### The end of the file -/

/-- A constant that is cut off is cut off in the same place if there are more bytes. -/
theorem Constant.awaits_read (index : UInt16) : (read index).Awaits := by
  refine .bind reads_u1.stable awaits_u1 fun tag => ?_
  split
  next => exact .raise fun _ => trivial
  next kind _ =>
    cases kind with
    | utf8 =>
      refine .bind reads_u2.stable awaits_u2 fun length => .bind (reads_bytes _).stable
        (awaits_bytes _) fun bytes => ?_
      split
      · exact .pure _
      · exact .raise fun _ => trivial
    | integer => exact awaits_u4.map.map
    | float => exact awaits_u4.map
    | long => exact awaits_u8.map.map
    | double => exact awaits_u8.map
    | methodHandle => exact .bind reads_u1.stable awaits_u1 fun _ => awaits_u2.map
    | classref | string | methodType | module | package => exact awaits_u2.map
    | fieldref | methodref | interfaceMethodref | nameAndType | dynamic | invokeDynamic =>
      exact .bind reads_u2.stable awaits_u2 fun _ => awaits_u2.map

namespace ConstantPool

/-- A pool is cut off in the same constant. -/
theorem awaits_readSlots (left : Nat) (done : Array (Option Constant)) :
    (readSlots done left).Awaits := by
  induction left using Nat.strongRecOn generalizing done with
  | ind left ih =>
    cases left with
    | zero => exact .pure _
    | succ left =>
      rw [readSlots]
      refine .offset fun offset => .bind (Constant.reads_read _).within.stable
        (Constant.awaits_read _).within fun constant => ?_
      split
      · cases left with
        | zero => exact .raise fun _ => trivial
        | succ left => exact ih left (by omega) _
      · exact ih left (by omega) _

/-- A pool that is cut off has not been validated yet. -/
theorem awaits_read : read.Awaits := by
  refine .bind reads_u2.stable awaits_u2 fun count => ?_
  split
  next => exact .raise fun _ => trivial
  next left _ =>
    refine .bind (reads_readSlots left _).stable (awaits_readSlots left _) fun slots =>
      Settles.awaits ?_
    exact (Settles.of_settled (settled_of_validate _)).bind fun _ _ _ _ => .pure _

/-- A table of indices is cut off in the same index. -/
theorem awaits_indices (pool : ConstantPool) (kind : Constant.Kind) :
    (pool.readIndices kind).Awaits := by
  refine .table (fun _ => pool.reads_index [kind]) fun _ =>
    .bind reads_u2.stable awaits_u2 fun index => ?_
  exact ((Settles.check (pool.judges_require _ _)).bind fun _ _ _ _ => .pure _).awaits

end ConstantPool

/-- The body of an attribute is taken as a whole, so only the end of the file can cut it off. -/
theorem NamedAttribute.awaits_read {decode : Attribute.Kind → Reader Attribute}
    (hdecode : ∀ kind, (decode kind).Reports) : (read s decode).Awaits := by
  rw [read_eq]
  refine .offset fun offset => .bind reads_u2.stable awaits_u2 fun _ =>
    .bind (Reads.check _).stable (.check (s.pool.judges_text _).inside) fun name =>
      .bind reads_u4.stable awaits_u4 fun length => .offset fun start =>
        (awaits_bytes _).within.bind_ok (reads_bytes _).within.stable fun body c c' hbody => ?_
  obtain ⟨x, ⟨rfl, hlength⟩, -⟩ := (reads_bytes _).sound (mapFailure_eq_ok.1 hbody)
  exact (settles_decodeBody s hdecode hlength).awaits

/-- A list of attributes is cut off in the same attribute, whose body is not decoded before all of
    it is there. -/
theorem Attribute.awaits_readList (pool : ConstantPool) (options : ReadOptions) (site : Site)
    (houter : site.location ≠ .code) : (readList (site.surroundings pool options)).Awaits :=
  .table (fun _ => inverts_readNamed pool options site houter) fun _ =>
    NamedAttribute.awaits_read _ (Attribute.reports_read _)

/-- A field or a method is cut off in its attributes or before them. -/
theorem Member.awaits_read (pool : ConstantPool) (options : ReadOptions) {location : Location}
    (interfaces : Nat) (hlocation : location ≠ .code) :
    (read ⟨pool, options, location, interfaces, none⟩).Awaits := by
  have htext (index : UInt16) : Awaits (liftM (pool.text index) : Reader Text) :=
    .check (pool.judges_text _)
  refine .bind reads_u2.stable awaits_u2 fun _ => .bind reads_u2.stable awaits_u2 fun _ =>
    .bind reads_u2.stable awaits_u2 fun _ => .bind (Reads.check _).stable (htext _) fun _ =>
      .bind (Reads.check _).stable (htext _) fun _ => .bind (Reads.log _).stable (.log _) fun _ =>
        .map <| .within ?_
  have hlist := Attribute.awaits_readList pool options ⟨location, interfaces, 0, none⟩ hlocation
  refine .bind (Attribute.inverts_readList pool options ⟨location, interfaces, 0, none⟩
    hlocation).stable hlist fun attributes => Settles.awaits ?_
  split
  · exact (Settles.check (Attribute.judges_checkThrows attributes)).bind fun _ _ _ _ => .pure _
  · exact .pure _

namespace ClassFile

variable {options : ReadOptions} {bytes : Bytes}

/-- The members and attributes of a class are cut off in the same one. -/
theorem awaits_parts (pool : ConstantPool) (options : ReadOptions) (interfaces : Nat) :
    (readParts pool options interfaces).Awaits := by
  have hmembers {location : Location} (hlocation : location ≠ .code) :
      (table fun _ => Member.read ⟨pool, options, location, interfaces, none⟩).Awaits :=
    .table (fun _ => Member.inverts_read hlocation) fun _ => Member.awaits_read _ _ _ hlocation
  refine .bind (Inverts.table fun _ => Member.inverts_read (by decide)).stable
    (hmembers (by decide)) fun fields =>
    .bind (Inverts.table fun _ => Member.inverts_read (by decide)).stable (hmembers (by decide))
    fun methods => ?_
  exact (Attribute.awaits_readList pool options ⟨.classFile, interfaces, 0, none⟩ nofun).map

/-- What follows the pool is cut off in the same place. -/
theorem awaits_readBody (options : ReadOptions) (minor major : UInt16) (pool : ConstantPool) :
    (readBody options minor major pool).Awaits :=
  .bind reads_u2.stable awaits_u2 fun _ => .bind reads_u2.stable awaits_u2 fun _ =>
    .bind (Reads.check _).stable (.check (pool.judges_className _).inside) fun _ =>
      .bind reads_u2.stable awaits_u2 fun _ =>
        .bind (Reads.check _).stable (.check (pool.judges_requireOptional _ _).inside) fun _ =>
          .bind (pool.inverts_indices .classref).within.stable
            (pool.awaits_indices .classref).within
            fun interfaces => .bind (reads_parts pool options interfaces.length).within.stable
              (awaits_parts pool options interfaces.length).within fun ⟨_, _, _⟩ =>
              (settles_finish _).awaits

/-- A class file that is cut off is cut off in the same place if there are more bytes, but still too
    few. -/
theorem awaits_read (options : ReadOptions) : (read options).Awaits := by
  rw [read_eq]
  exact .bind reads_u4.stable awaits_u4 fun _ => .refuse (b := ()) (fun _ => trivial) <|
    .bind reads_u2.stable awaits_u2 fun minor => .bind reads_u2.stable awaits_u2 fun major =>
      .bind ConstantPool.reads_read.within.stable ConstantPool.awaits_read.within fun pool =>
        .bind (Reads.log _).stable (.log _) fun _ => awaits_readBody options minor major pool

/-- Every failure to read a class file has a fault. A truncation tells where the file ends, and that
    this is the reason: a file that goes on, but not far enough, is truncated in the same place. The
    attribute that a wrong length is told of is of a registered kind, and the length is not the
    declared one. -/
theorem ofBytes_accounts {f : Failure} (h : ofBytes options bytes = .error f) :
    ∃ fault, f.fault? = some fault ∧
      (∀ offset needed available, fault = .truncated offset needed available →
        offset + available = bytes.length ∧ available < needed ∧
        ∀ extra : Bytes, available + extra.length < needed →
          ∃ e, ofBytes options (bytes ++ extra) = .error e ∧
            e.fault? = some (.truncated offset needed (available + extra.length))) ∧
      ∀ kind declared actual, fault = .lengthMismatch kind declared actual →
        Attribute.Kind.ofName? (Text.ofString kind.name) = some kind ∧ actual ≠ declared.toNat := by
  obtain ⟨cursor, hread⟩ := ofBytes_error_iff.1 h
  obtain ⟨fault, hfault, haccounts⟩ := (reports_read options).tells hread
  refine ⟨fault, hfault, ?_, ?_⟩
  · rintro offset needed available rfl
    obtain ⟨hend, hlt⟩ := haccounts
    refine ⟨by simpa [Cursor.stop, Cursor.start] using hend, hlt, fun extra hextra => ?_⟩
    obtain ⟨e, cursor', he, hefault⟩ :=
      (awaits_read options).again hread hfault (d := .start (bytes ++ extra)) rfl rfl hextra
    exact ⟨e, ofBytes_error_iff.2 ⟨cursor', he⟩, hefault⟩
  · rintro kind declared actual rfl
    exact ⟨Attribute.Kind.ofName?_eq_some.2 rfl, haccounts⟩

/-- `throwerBytes`, where the code declares a byte that belongs to the class. -/
def overlongBytes : Bytes := throwerBytes.set 55 25

/-- Code of a class file that declares 25 bytes and has another length. -/
theorem ofBytes_accounts_overlong : ∃ f actual, ofBytes {} overlongBytes = .error f ∧
    f.fault? = some (.lengthMismatch .code 25 actual) ∧
      Attribute.Kind.ofName? (Text.ofString Attribute.Kind.code.name) = some .code ∧
      actual ≠ 25 := by
  have hmismatch : (match ofBytes {} overlongBytes with
      | .ok _ => none
      | .error f => f.fault?) = some (.lengthMismatch .code 25 24) := by cbv
  split at hmismatch
  next => cases hmismatch
  next f h =>
    obtain ⟨fault, hfault, -, haccounts⟩ := ofBytes_accounts h
    obtain rfl : fault = .lengthMismatch .code 25 24 := by simpa [hmismatch] using hfault.symm
    exact ⟨f, 24, h, hmismatch, haccounts _ _ _ rfl⟩

end ClassFile

end ClassFormat
