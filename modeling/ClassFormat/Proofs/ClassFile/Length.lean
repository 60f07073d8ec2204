import Mathlib
import ClassFormat.Proofs.Attribute.Truncation
import ClassFormat.Proofs.ClassFile.Codec
import ClassFormat.Proofs.Failing

/-!
# Declared lengths of attributes

The length that an attribute declares has to be that of its contents. Any other one is refused, and
blamed on the attribute that declares it, however deep within its contents the bytes run out.

* `Attribute.Kind.Misdeclared`: what a wrong length is refused as;
* `NamedAttribute.fails_redeclared`: an attribute with another length than that of its contents;
* `ClassFile.Place`, `ClassFile.Stands`: the attributes of a class and of its members, and where
  each of them stands in the file;
* `ClassFile.ofBytes_redeclared`: a class file, one length of which is changed.
-/

namespace ClassFormat

open Reader

/-! ### Bodies -/

/-- What is wrong if contents of `length` bytes, which start at the offset `start` of a file of
    `total` bytes, are declared to be of `declared` bytes. -/
inductive Attribute.Kind.Misdeclared (kind : Kind) (length start total : Nat) (declared : UInt32) :
    Fault → Prop
  | tooLong (hfits : start + declared.toNat ≤ total) (h : length < declared.toNat) :
    Misdeclared kind length start total declared (.lengthMismatch kind declared length)
  | tooShort {actual : Nat} (hfits : start + declared.toNat ≤ total) (h : declared.toNat < actual)
    (hactual : actual ≤ length) :
    Misdeclared kind length start total declared (.lengthMismatch kind declared actual)
  | outside (h : total < start + declared.toNat) :
    Misdeclared kind length start total declared (.truncated start declared.toNat (total - start))

namespace NamedAttribute

variable {s : Surroundings} {kind : Attribute.Kind} {declared : UInt32} {start offset : Nat}
  {body after : Bytes} {decode : Attribute.Kind → Reader Attribute} {L : Spelling Attribute}
  {content : Attribute}

/-- Contents that do not take up the whole of the body that they are given. -/
theorem fails_readBody_of_extra (hdefinite : (decode kind).Definite)
    (hcovers : (decode kind).Covers L) (ha : L content body) {extra : Bytes} (hextra : extra ≠ []) :
    (readBody kind declared start (body ++ extra) (decode kind)).Fails offset after fun fault =>
      fault = .lengthMismatch kind declared body.length := by
  rintro c - -
  obtain ⟨inner, hok, hend⟩ := hcovers.complete (c := ⟨body, start, c.log⟩) ha
  obtain ⟨x, past, hagain⟩ := hdefinite.again hok
  obtain rfl : body = x := by rw [← List.append_nil x, ← hend]; exact past.rest
  -- The contents are decoded as before, and leave the bytes that are too many.
  obtain ⟨inner', hok', past'⟩ :=
    hagain (d := ⟨body ++ extra, start, c.log⟩) rfl (Eq.refl (body ++ extra))
  have hleft : inner'.rest = extra := past'.rest_eq rfl
  obtain ⟨b, rest, rfl⟩ := List.exists_cons_of_ne_nil hextra
  refine ⟨.ofFault (.lengthMismatch kind declared body.length), { c with log := inner'.log },
    _, ?_, rfl, rfl⟩
  simp only [readBody, Reader.mapFailure, confined, Bind.bind, EStateM.bind, hok', hleft]
  simp [Fault.raise, tooShort]
  rfl

/-- Contents that run out of bytes in the body that they are given. -/
theorem fails_readBody_of_cut (hdefinite : (decode kind).Definite)
    (hcovers : (decode kind).Covers L) (ha : L content body) {n : Nat} (hn : n < body.length) :
    (readBody kind declared start (body.take n) (decode kind)).Fails offset after fun fault =>
      ∃ actual, fault = .lengthMismatch kind declared actual ∧ n < actual ∧
      actual ≤ body.length := by
  rintro c - -
  obtain ⟨inner, hok, hend⟩ := hcovers.complete (c := ⟨body, start, c.log⟩) ha
  obtain ⟨x, past, hcut⟩ := hdefinite.cut hok
  obtain rfl : body = x := by rw [← List.append_nil x, ← hend]; exact past.rest
  obtain ⟨f, inner', stop, needed, available, hfail, hfault, hstop, hlt, hlimit⟩ :=
    hcut (d := ⟨body.take n, start, c.log⟩) rfl hn rfl
  have hlast := past.offset
  simp only [List.length_take_of_le hn.le] at hstop hlast
  refine ⟨f.because (.lengthMismatch kind declared (stop + needed - start)),
    { c with log := inner'.log }, _, ?_, rfl, stop + needed - start, rfl, by omega, by omega⟩
  simp only [readBody, Reader.mapFailure, confined, Bind.bind, EStateM.bind,
    hfail, tooShort, hfault]

section

variable {nameIndex : UInt16} (hname : s.pool.text nameIndex = .ok (Text.ofString kind.name))

include hname

/-- The file ends before the body does. -/
theorem fails_read_of_outside (h : after.length < declared.toNat) :
    (read s decode).Fails offset (Writer.u2 nameIndex ++ (Writer.u4 declared ++ after)) fun fault =>
      fault = .truncated (offset + 6) declared.toNat after.length := by
  refine .offset <| .next reads_u2 rfl <| .skip (Reads.check _) ⟨by rw [hname]; rfl, rfl⟩ <|
    .next reads_u4 rfl <| .offset ?_
  simp only [Writer.length_u2, Writer.length_u4, Nat.add_assoc, Nat.reduceAdd]
  exact (fails_bytes h).within.bind

/-- The body is refused. -/
theorem fails_read_of_body {P : Fault → Prop} (hlocation : s.location ∈ kind.locations)
    (hlength : body.length = declared.toNat)
    (hbody : (readBody kind declared (offset + 6) body (decode kind)).Fails
      (offset + 6 + body.length) after P) :
    (read s decode).Fails offset
      (Writer.u2 nameIndex ++ (Writer.u4 declared ++ (body ++ after))) P := by
  refine .offset <| .next reads_u2 rfl <| .skip (Reads.check _) ⟨by rw [hname]; rfl, rfl⟩ <|
    .next reads_u4 rfl <| .offset <| .next (reads_bytes _).within ⟨rfl, hlength⟩ ?_
  simp only [Writer.length_u2, Writer.length_u4, Nat.add_assoc, Nat.reduceAdd] at hbody ⊢
  simp only [Attribute.Kind.ofName?_eq_some.2 rfl, if_pos hlocation]
  exact .skip (a := ()) (Reads.log _) rfl hbody.within.bind

/-- An attribute that declares another length than that of its contents. -/
theorem fails_redeclared (hlocation : s.location ∈ kind.locations)
    (hdefinite : (decode kind).Definite) (hcovers : (decode kind).Covers L) (ha : L content body)
    (hdeclared : declared.toNat ≠ body.length) :
    (read s decode).Fails offset (Writer.u2 nameIndex ++ (Writer.u4 declared ++ (body ++ after)))
      (kind.Misdeclared body.length (offset + 6) (offset + 6 + (body ++ after).length)
        declared) := by
  generalize htotal : offset + 6 + (body ++ after).length = total
  rw [List.length_append] at htotal
  by_cases hfits : (body ++ after).length < declared.toNat
  · refine (fails_read_of_outside hname hfits).imp ?_
    rintro _ rfl
    rw [List.length_append] at hfits ⊢
    have hleft : body.length + after.length = total - (offset + 6) := by omega
    rw [hleft]
    exact .outside (by omega)
  rw [List.length_append, Nat.not_lt] at hfits
  rcases Nat.lt_or_gt_of_ne hdeclared with hcut | hextra
  · -- The rest of the contents stands behind the body.
    have hsplit : body ++ after = body.take declared.toNat ++
        (body.drop declared.toNat ++ after) := by
      rw [← List.append_assoc, List.take_append_drop]
    rw [hsplit]
    refine fails_read_of_body hname hlocation (List.length_take_of_le hcut.le) ?_
    refine (fails_readBody_of_cut hdefinite hcovers ha hcut).imp ?_
    rintro _ ⟨actual, rfl, hlt, hle⟩
    exact .tooShort (by omega) hlt hle
  · -- What stands behind the contents is in the body.
    obtain ⟨n, hn⟩ := Nat.exists_eq_add_of_lt hextra
    have hsplit : body ++ after = (body ++ after.take (n + 1)) ++ after.drop (n + 1) := by
      rw [List.append_assoc, List.take_append_drop]
    have hlength : (after.take (n + 1)).length = n + 1 := List.length_take_of_le (by omega)
    rw [hsplit]
    refine fails_read_of_body hname hlocation (by rw [List.length_append, hlength]; omega) ?_
    refine (fails_readBody_of_extra hdefinite hcovers ha (List.ne_nil_of_length_pos (by omega))).imp
      ?_
    rintro _ rfl
    exact .tooLong (by omega) hextra

end

/-- An attribute of a class, a field or a method that is read, with another length. -/
theorem fails_of_admitted {pool : ConstantPool} {options : ReadOptions} {location : Location}
    {interfaces : Nat} {a : NamedAttribute} (hlocation : location ≠ .code)
    (hsites : AllAdmitted pool options (a.sites ⟨location, interfaces, 0, none⟩))
    (hcheck : checkName pool a = .ok ()) (hkind : a.content.kind? = some kind)
    (hdebug : kind ≠ .sourceDebugExtension) (hbody : a.content.write pool = .ok body)
    (hdeclared : declared.toNat ≠ body.length) :
    (read ⟨pool, options, location, interfaces, none⟩
      (Attribute.read ⟨pool, options, location, interfaces, none⟩)).Fails offset
      (Writer.u2 a.nameIndex ++ (Writer.u4 declared ++ (body ++ after)))
      (kind.Misdeclared body.length (offset + 6) (offset + 6 + (body ++ after).length)
        declared) := by
  rw [sites_eq, AllAdmitted, List.forall_mem_cons] at hsites
  obtain ⟨hself, hinner⟩ := hsites
  have hregistered := hself.registered
  have hname := checkName_eq_ok.1 hcheck
  rw [Registered, hkind] at hregistered
  rw [hkind] at hname
  have hcovers := @Attribute.covers_read pool options ⟨location, interfaces, 0, none⟩ kind hlocation
  exact fails_redeclared (ConstantPool.text_eq_ok.2 ⟨hself.name.1, hname⟩) hregistered
    (Attribute.definite_read _ hdebug) hcovers ⟨hkind, hbody, hself.content, hself.code,
    hinner⟩ hdeclared

end NamedAttribute

/-! ### Members -/

namespace Member

variable {pool : ConstantPool} {options : ReadOptions} {location : Location}
  {interfaces index : Nat} {m : Member} {a : NamedAttribute} {before after : Bytes}

/-- An attribute of the member stands between the bytes `before` and `after` of it. -/
def Stands (pool : ConstantPool) (m : Member) (index : Nat) (before after : Bytes) : Prop :=
  ∃ x, Writer.Stands (NamedAttribute.write pool) m.attributes index x after ∧
    before = Writer.u2 m.accessFlags ++
    (Writer.u2 m.nameIndex ++ (Writer.u2 m.descriptorIndex ++ x))

/-- The bytes of a member are divided around each of its attributes. -/
theorem exists_stands {bytes : Bytes} (h : m.write pool = .ok bytes)
    (ha : m.attributes[index]? = some a) :
    ∃ before row after, m.Stands pool index before after ∧ a.write pool = .ok row ∧
      bytes = before ++ (row ++ after) := by
  obtain ⟨z, hz, rfl⟩ := write_eq_ok.1 h
  rw [Attribute.writeList_eq_table] at hz
  obtain ⟨x, row, after, hstands, hrow, rfl⟩ := Writer.exists_stands hz ha
  exact ⟨_, row, after, ⟨x, hstands, rfl⟩, hrow, by simp⟩

section

variable {start : Nat} {y : Bytes} {P : Fault → Prop} (hlocation : location ≠ .code)
  (ha : m.attributes[index]? = some a)

include hlocation ha

/-- A member fails at the attribute that fails. -/
theorem fails_read (hm : m.Admitted pool options location interfaces)
    (hlength : m.attributes.length < 65536) (hstands : m.Stands pool index before after)
    (hrow : AllAdmitted pool options (a.sites ⟨location, interfaces, 0, none⟩) →
      (NamedAttribute.read ⟨pool, options, location, interfaces, none⟩
        (Attribute.read ⟨pool, options, location, interfaces, none⟩)).Fails
          (start + before.length) y P) :
    (read ⟨pool, options, location, interfaces, none⟩).Fails start (before ++ y) P := by
  obtain ⟨x, hx, rfl⟩ := hstands
  obtain ⟨hname, hdescriptor⟩ : pool.Refers m.nameIndex [.utf8] ∧
      pool.Refers m.descriptorIndex [.utf8] := by
    simpa [references] using hm.references
  obtain ⟨name, hname⟩ := ConstantPool.exists_text_eq_ok.2 hname
  obtain ⟨descriptor, hdescriptor⟩ := ConstantPool.exists_text_eq_ok.2 hdescriptor
  have hsites := (NamedAttribute.allAdmitted_exceptions (n := 0) ..).1 hm.sites
  simp only [AllAdmitted, NamedAttribute.allSites_eq_flatMap, List.forall_mem_flatMap] at hsites
  have hrow := hrow (hsites a (List.mem_of_getElem? ha))
  simp only [List.append_assoc]
  refine .next reads_u2 rfl <| .next reads_u2 rfl <| .next reads_u2 rfl <|
    .skip (Reads.check _) ⟨hname, rfl⟩ <|
    .skip (Reads.check _) ⟨hdescriptor, rfl⟩ <| .skip (a := ()) (Reads.log _) rfl <| .bind <|
    .within <| .bind ?_
  refine .row (fun _ => Attribute.inverts_readNamed pool options ⟨location, interfaces, 0, none⟩
    hlocation) hx hlength (List.getElem?_eq_some_iff.1 ha).1 hsites fun _ => ?_
  simpa only [List.length_append, Writer.length_u2, ← Nat.add_assoc] using hrow

/-- Members fail at the attribute that fails. -/
theorem fails_readAll {members : List Member} {number : Nat} {bytes v w : Bytes}
    (hadmitted : ∀ m ∈ members, m.Admitted pool options location interfaces)
    (hwrite : Writer.table (write pool) members = .ok bytes) (hmember : members[number]? = some m)
    (hstands : Writer.Stands (write pool) members number before after)
    (hv : m.Stands pool index v w)
    (hrow : AllAdmitted pool options (a.sites ⟨location, interfaces, 0, none⟩) →
      (NamedAttribute.read ⟨pool, options, location, interfaces, none⟩
        (Attribute.read ⟨pool, options, location, interfaces, none⟩)).Fails
          (start + (before ++ v).length) y P) :
    (table fun _ => read ⟨pool, options, location, interfaces, none⟩).Fails start
      (before ++ (v ++ y)) P := by
  have hmem := List.mem_of_getElem? hmember
  obtain ⟨x, hx⟩ := Writer.exists_of_table hwrite m hmem
  obtain ⟨z, hz, -⟩ := write_eq_ok.1 hx
  rw [Attribute.writeList_eq_table] at hz
  refine .row (fun _ => inverts_read hlocation) hstands (Writer.table_eq_ok.1 hwrite).1
    (List.getElem?_eq_some_iff.1 hmember).1 hadmitted fun _ => ?_
  refine fails_read hlocation ha (hadmitted m hmem) (Writer.table_eq_ok.1 hz).1 hv fun h => ?_
  rw [Nat.add_assoc, ← List.length_append]
  exact hrow h

end

end Member

/-! ### Class files -/

namespace ClassFile

/-- A place in the list of attributes of a class or of a member, which are counted from zero. -/
inductive Place where
  | inField (member index : Nat)
  | inMethod (member index : Nat)
  | inClass (index : Nat)
  deriving DecidableEq

/-- The attribute at a place. -/
def attributeAt? (c : ClassFile) : Place → Option NamedAttribute
  | .inField member index => c.fields[member]?.bind fun m => m.attributes[index]?
  | .inMethod member index => c.methods[member]?.bind fun m => m.attributes[index]?
  | .inClass index => c.attributes[index]?

/-- The bytes of a class file are those before its fields, of its fields, of its methods and of its
    attributes. -/
structure Parts (c : ClassFile) (bytes lead f m a : Bytes) : Prop where
  start : ∃ pool, c.pool.Spelled pool ∧ ∃ interfaces, Writer.indices c.interfaces = .ok interfaces ∧
    lead = c.head ++ (pool ++ (Writer.u2 c.accessFlags ++ (Writer.u2 c.thisClass ++
      (Writer.u2 c.superClass ++ interfaces))))
  fields : Writer.table (Member.write c.pool) c.fields = .ok f
  methods : Writer.table (Member.write c.pool) c.methods = .ok m
  attributes : Attribute.writeList c.pool c.attributes = .ok a
  whole : bytes = lead ++ (f ++ (m ++ a))

/-- The attribute at a place stands between the bytes `before` and `after` of the class file. -/
inductive Stands (c : ClassFile) (bytes : Bytes) : Place → Bytes → Bytes → Prop
  | inField {lead fields methods attributes x y v w : Bytes} {member index : Nat} {m : Member}
    (hparts : c.Parts bytes lead fields methods attributes) (hmember : c.fields[member]? = some m)
    (hx : Writer.Stands (Member.write c.pool) c.fields member x y)
    (hv : m.Stands c.pool index v w) :
    Stands c bytes (.inField member index) (lead ++ (x ++ v)) (w ++ (y ++ (methods ++ attributes)))
  | inMethod {lead fields methods attributes x y v w : Bytes} {member index : Nat} {m : Member}
    (hparts : c.Parts bytes lead fields methods attributes) (hmember : c.methods[member]? = some m)
    (hx : Writer.Stands (Member.write c.pool) c.methods member x y)
    (hv : m.Stands c.pool index v w) :
    Stands c bytes (.inMethod member index) (lead ++ (fields ++ (x ++ v))) (w ++ (y ++ attributes))
  | inClass {lead fields methods attributes x y : Bytes} {index : Nat}
    (hparts : c.Parts bytes lead fields methods attributes)
    (hx : Writer.Stands (NamedAttribute.write c.pool) c.attributes index x y) :
    Stands c bytes (.inClass index) (lead ++ (fields ++ (methods ++ x))) y

variable {c : ClassFile} {options : ReadOptions}
  {bytes lead fields methods attributes before : Bytes} {place : Place} {a : NamedAttribute}

/-- The bytes of a class file are divided before its fields, its methods, and its attributes. -/
theorem exists_parts (h : ofBytes options bytes = .ok c) :
    ∃ lead fields methods attributes, c.Parts bytes lead fields methods attributes := by
  obtain ⟨x, _, hx, -, hbody, -, rfl⟩ := ofBytes_eq_ok.1 h
  obtain ⟨i, hi, f, hf, m, hm, z, hz, rfl⟩ := body_eq_ok.1 hbody
  exact ⟨_, f, m, z, ⟨x, hx, i, hi, rfl⟩, hf, hm, hz, by simp⟩

/-- Every attribute of a class and of its members stands somewhere in the class file. -/
theorem Parts.exists_stands (hparts : c.Parts bytes lead fields methods attributes)
    (ha : c.attributeAt? place = some a) :
    ∃ before row after, c.Stands bytes place before after ∧ a.write c.pool = .ok row ∧
      bytes = before ++ (row ++ after) := by
  cases place with
  | inField member index =>
    obtain ⟨m, hmember, ha⟩ := Option.bind_eq_some_iff.1 ha
    obtain ⟨x, _, y, hx, hm, hfields⟩ := Writer.exists_stands hparts.fields hmember
    obtain ⟨v, row, w, hv, hrow, rfl⟩ := Member.exists_stands hm ha
    exact ⟨_, row, _, .inField hparts hmember hx hv, hrow, by rw [hparts.whole, hfields]; simp⟩
  | inMethod member index =>
    obtain ⟨m, hmember, ha⟩ := Option.bind_eq_some_iff.1 ha
    obtain ⟨x, _, y, hx, hm, hmethods⟩ := Writer.exists_stands hparts.methods hmember
    obtain ⟨v, row, w, hv, hrow, rfl⟩ := Member.exists_stands hm ha
    exact ⟨_, row, _, .inMethod hparts hmember hx hv, hrow, by rw [hparts.whole, hmethods]; simp⟩
  | inClass index =>
    have hlist := hparts.attributes
    rw [Attribute.writeList_eq_table] at hlist
    obtain ⟨x, row, y, hx, hrow, hattributes⟩ := Writer.exists_stands hlist ha
    exact ⟨_, row, _, .inClass hparts hx, hrow, by rw [hparts.whole, hattributes]; simp⟩

/-- A class file fails where one of its members or attributes does. -/
theorem Parts.fails_read {y : Bytes} {P : Fault → Prop}
    (hparts : c.Parts bytes lead fields methods attributes) (hresolved : c.pool.Resolved)
    (hadmitted : c.Admitted options)
    (hfails : (readParts c.pool options c.interfaces.length).Fails lead.length y P) :
    (read options).Fails 0 (lead ++ y) P := by
  obtain ⟨pool, hpool, interfaces, hinterfaces, rfl⟩ := hparts.start
  obtain ⟨hthis, hsuper, hrefs⟩ : c.pool.Refers c.thisClass [.classref] ∧
    (c.superClass = 0 ∨ c.pool.Refers c.superClass [.classref]) ∧
      ∀ index ∈ c.interfaces, c.pool.Refers index [.classref] := by
    simpa [ownReferences] using hadmitted.references
  obtain ⟨name, hthis⟩ := hresolved.exists_className.2 hthis
  obtain ⟨u, hsuper⟩ := ConstantPool.exists_requireOptional_eq_ok.2 hsuper
  rw [read_eq, head]
  simp only [List.append_assoc]
  refine .next reads_u4 rfl <| .unless (b := ()) (not_not.2 rfl) <| .next reads_u2 rfl <|
    .next reads_u2 rfl <| .next ConstantPool.reads_read.within ⟨hpool, hresolved⟩ <|
    .skip (a := ()) (Reads.log _) rfl <|
      .next reads_u2 rfl <| .next reads_u2 rfl <|
        .skip (Reads.check _) ⟨inside_eq_ok.2 hthis, rfl⟩ <|
        .next reads_u2 rfl <| .skip (Reads.check _) ⟨inside_eq_ok.2 hsuper, rfl⟩ <|
          .next (c.pool.inverts_indices .classref).within ⟨hinterfaces, hrefs⟩ <|
          .bind <| .within ?_
  simpa only [head, List.length_append, Writer.length_u2, Writer.length_u4, ← Nat.add_assoc,
    Nat.zero_add] using hfails

/-- A class file fails at the attribute that fails. -/
theorem Stands.fails_read {after y : Bytes} {P : Fault → Prop}
    (hstands : c.Stands bytes place before after) (hresolved : c.pool.Resolved)
    (hadmitted : c.Admitted options) (ha : c.attributeAt? place = some a)
    (hrow : ∀ location, location ≠ .code →
      AllAdmitted c.pool options (a.sites ⟨location, c.interfaces.length, 0, none⟩) →
        (NamedAttribute.read ⟨c.pool, options, location, c.interfaces.length, none⟩
          (Attribute.read ⟨c.pool, options, location, c.interfaces.length, none⟩)).Fails
            before.length y P) :
    (read options).Fails 0 (before ++ y) P := by
  cases hstands with
  | inField hparts hmember hx hv =>
    rw [attributeAt?, hmember] at ha
    rw [List.append_assoc, List.append_assoc]
    refine hparts.fails_read hresolved hadmitted <| .bind ?_
    refine Member.fails_readAll (by decide) ha hadmitted.fields hparts.fields hmember hx hv
      fun h => ?_
    rw [← List.length_append]
    exact hrow _ (by decide) h
  | inMethod hparts hmember hx hv =>
    rw [attributeAt?, hmember] at ha
    simp only [List.append_assoc]
    refine hparts.fails_read hresolved hadmitted <|
      .next (Inverts.table fun _ => Member.inverts_read (by decide))
      ⟨hparts.fields, hadmitted.fields⟩ <| .bind ?_
    refine Member.fails_readAll (by decide) ha hadmitted.methods hparts.methods hmember hx hv
      fun h => ?_
    simpa only [List.length_append, Nat.add_assoc] using hrow _ (by decide) h
  | inClass hparts hx =>
    have hsites := hadmitted.sites
    have hwrite := hparts.attributes
    rw [Attribute.writeList_eq_table] at hwrite
    simp only [AllAdmitted, NamedAttribute.allSites_eq_flatMap, List.forall_mem_flatMap] at hsites
    simp only [List.append_assoc]
    refine hparts.fails_read hresolved hadmitted <|
      .next (Inverts.table fun _ => Member.inverts_read (by decide))
      ⟨hparts.fields, hadmitted.fields⟩ <|
        .next (Inverts.table fun _ => Member.inverts_read (by decide))
        ⟨hparts.methods, hadmitted.methods⟩ <| .bind ?_
    have houter : c.site.location ≠ .code := by simp [site]
    refine .row (fun _ => Attribute.inverts_readNamed c.pool options c.site houter) hx
      (Writer.table_eq_ok.1 hwrite).1 (List.getElem?_eq_some_iff.1 ha).1 hsites fun _ => ?_
    simpa only [List.length_append, Nat.add_assoc] using hrow _ (by decide)
      (hsites a (List.mem_of_getElem? ha))

/-- Every attribute of a class and of its members that is decoded, other than a debug extension, has
    to declare the length of its contents: with any other length the class file is refused, for want
    of bytes if the file ends before the body does, and otherwise for that length. -/
theorem ofBytes_redeclared {kind : Attribute.Kind} (h : ofBytes options bytes = .ok c)
    (ha : c.attributeAt? place = some a) (hkind : a.content.kind? = some kind)
    (hdebug : kind ≠ .sourceDebugExtension) :
    ∃ before length body after, c.Stands bytes place before after ∧
      bytes = before ++ (Writer.u2 a.nameIndex ++ (Writer.u4 length ++ (body ++ after))) ∧
      body.length = length.toNat ∧ ∀ declared ≠ length, ∃ f fault,
        ofBytes options (before ++
          (Writer.u2 a.nameIndex ++ (Writer.u4 declared ++ (body ++ after)))) = .error f ∧
          f.fault? = some fault ∧
          kind.Misdeclared length.toNat (before.length + 6) bytes.length declared fault := by
  obtain ⟨-, -, -, hresolved, -, hadmitted, -⟩ := ofBytes_eq_ok.1 h
  obtain ⟨lead, fields, methods, attributes, hparts⟩ := exists_parts h
  obtain ⟨before, row, after, hstands, hrow, rfl⟩ := hparts.exists_stands ha
  obtain ⟨hcheck, body, hbody, hlength, rfl⟩ := NamedAttribute.write_eq_ok.1 hrow
  have hbodyLength : (UInt32.ofNat body.length).toNat = body.length :=
    UInt32.toNat_ofNat_of_lt' hlength
  refine ⟨before, UInt32.ofNat body.length, body, after, hstands, by simp, hbodyLength.symm,
    fun declared hdeclared => ?_⟩
  have hfails : (read options).Fails 0
      (before ++ (Writer.u2 a.nameIndex ++ (Writer.u4 declared ++ (body ++ after))))
      (kind.Misdeclared body.length (before.length + 6) (before.length + 6 + (body ++ after).length)
          declared) := by
    refine hstands.fails_read hresolved hadmitted ha fun location hlocation hsites => ?_
    exact NamedAttribute.fails_of_admitted hlocation hsites hcheck hkind hdebug hbody fun heq =>
      hdeclared (by rw [← heq, UInt32.ofNat_toNat])
  obtain ⟨f, cursor, fault, hfail, hfault, hmis⟩ := hfails (.start _) rfl rfl
  refine ⟨f, fault, ofBytes_error_iff.2 ⟨cursor, hfail⟩, hfault, ?_⟩
  rw [hbodyLength]
  convert hmis using 1
  simp
  omega

/-- The code of the method declares any other length. -/
theorem ofBytes_redeclared_thrower : ofBytes {} throwerBytes = .ok thrower ∧
    ∃ a, thrower.attributeAt? (.inMethod 0 0) = some a ∧ a.content.kind? = some .code ∧
      ∃ before length body after, thrower.Stands throwerBytes (.inMethod 0 0) before after ∧
        throwerBytes = before ++ (Writer.u2 a.nameIndex ++ (Writer.u4 length ++ (body ++ after))) ∧
        body.length = length.toNat ∧ ∀ declared ≠ length, ∃ f fault,
          ofBytes {} (before ++
            (Writer.u2 a.nameIndex ++ (Writer.u4 declared ++ (body ++ after)))) = .error f ∧
            f.fault? = some fault ∧
            Attribute.Kind.code.Misdeclared length.toNat (before.length + 6) throwerBytes.length
              declared fault := by
  obtain ⟨a, ha, hkind⟩ : ∃ a, thrower.attributeAt? (.inMethod 0 0) = some a ∧
      a.content.kind? = some .code :=
    ⟨_, rfl, rfl⟩
  exact ⟨ofBytes_thrower, a, ha, hkind, ofBytes_redeclared ofBytes_thrower ha hkind (by decide)⟩

end ClassFile

end ClassFormat
