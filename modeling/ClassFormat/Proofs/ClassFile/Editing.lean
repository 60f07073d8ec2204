import Mathlib
import ClassFormat.Proofs.ClassFile.Preservation
import ClassFormat.Proofs.ClassFile.RoundTrip
import ClassFormat.Proofs.ConstantPool.Editing

/-!
# Editing the pool of a class file

The rest of a class file relies on its pool for the kinds of constants and for the names of its
attributes, and the pool relies on the rest for the number of bootstrap methods. Edits that keep
to this change nothing but the pool.

* `ConstantPool.Keeps`: each index holds a constant of the kind it held;
* `Attribute.writeList_keeps`: attributes are written the same, as long as their names are there;
* `ClassFile.Edited`: what such edits make of the pool of a class file;
* `ClassFile.Kept`: what each of them preserves (`ClassFile.Edited.kept`);
* `ClassFile.ofBytes_edited`: the class file with the edited pool is written, and is read back.
-/

namespace ClassFormat

/-! ### Pools -/

namespace ConstantPool

variable {pool pool' : ConstantPool} {index : UInt16} {constant old : Constant}

/-- Each index of a pool holds a constant of the same kind in the other one. -/
def Keeps (pool pool' : ConstantPool) : Prop :=
  ∀ index constant, pool.get? index = some constant →
    ∃ constant', pool'.get? index = some constant' ∧ constant'.kind = constant.kind

/-- What an index refers to is still there. -/
theorem Keeps.refers {kinds : List Constant.Kind} (h : pool.Keeps pool')
    (hrefers : pool.Refers index kinds) : pool'.Refers index kinds := by
  obtain ⟨h0, constant, hget, hkind⟩ := hrefers
  obtain ⟨constant', hget', hkind'⟩ := h index constant hget
  exact ⟨h0, constant', hget', hkind' ▸ hkind⟩

/-- What resolves still does. -/
theorem Keeps.resolves (h : pool.Keeps pool') {r : Reference} (hr : r.Resolves pool) :
    r.Resolves pool' :=
  hr.imp_right h.refers

theorem keeps_append (pool : ConstantPool) (constant : Constant) :
    pool.Keeps (pool.append constant) :=
  fun _ held hget => ⟨held, get?_append hget, rfl⟩

/-- What a pool holds at another index than the one that is put something at. -/
theorem get?_put_of_ne {other : UInt16} (hne : other ≠ index) :
    (pool.put index constant).get? other = pool.get? other := by
  have hne' : index.toNat ≠ other.toNat := fun h => hne (UInt16.toNat_inj.1 h.symm)
  simp [get?, put, Array.getElem?_setIfInBounds_ne hne']

/-- An index refers to the constant that is put there. -/
theorem get?_put_self (hget : pool.get? index = some old) :
    (pool.put index constant).get? index = some constant := by
  have hheld := Option.join_eq_some_iff.1 hget
  obtain ⟨hlt, -⟩ := Array.getElem?_eq_some_iff.1 hheld
  simp [get?, put, hlt]

/-- A constant of the same kind keeps what is referred to. -/
theorem keeps_put (hget : pool.get? index = some old) (hkind : constant.kind = old.kind) :
    pool.Keeps (pool.put index constant) := by
  intro other held hheld
  by_cases hother : other = index
  · subst hother
    obtain rfl : old = held := Option.some_inj.1 (hget.symm.trans hheld)
    exact ⟨constant, get?_put_self hget, hkind⟩
  · exact ⟨held, (get?_put_of_ne hother).trans hheld, rfl⟩

/-- One change after another keeps what both of them do. -/
theorem Keeps.trans {pool'' : ConstantPool} (h : pool.Keeps pool') (h' : pool'.Keeps pool'') :
    pool.Keeps pool'' := by
  intro index constant hget
  obtain ⟨constant', hget', hkind'⟩ := h index constant hget
  obtain ⟨constant'', hget'', hkind''⟩ := h' index constant' hget'
  exact ⟨constant'', hget'', hkind''.trans hkind'⟩

/-! ### Constants of an edited pool -/

variable {P : Constant → Prop}

/-- All entries have a property exactly if all constants in the slots do. -/
theorem forall_mem_entries :
    (∀ entry ∈ pool.entries, P entry.2) ↔ ∀ constant, some constant ∈ pool.slots.toList →
      P constant := by
  simp only [← exists_mem_entries, Prod.forall]
  exact ⟨fun h constant ⟨index, hmem⟩ => h index constant hmem, fun h index constant hmem =>
    h constant ⟨index, hmem⟩⟩

/-- One more constant with a property. -/
theorem forall_entries_append (h : ∀ entry ∈ pool.entries, P entry.2) (hconstant : P constant) :
    ∀ entry ∈ (pool.append constant).entries, P entry.2 := by
  rw [forall_mem_entries] at h ⊢
  intro held hheld
  rcases mem_slots_append hheld with hold | hnew | hnone
  · exact h held hold
  · cases hnew
    exact hconstant
  · cases hnone

/-- One other constant with a property. -/
theorem forall_entries_put (h : ∀ entry ∈ pool.entries, P entry.2) (hconstant : P constant) :
    ∀ entry ∈ (pool.put index constant).entries, P entry.2 := by
  rw [forall_mem_entries] at h ⊢
  intro held hheld
  rw [put, Array.toList_setIfInBounds] at hheld
  rcases List.mem_or_eq_of_mem_set hheld with hold | hnew
  · exact h held hold
  · cases hnew
    exact hconstant

/-- Texts are joined if they are decoded from what they are encoded as. -/
theorem joined_iff : pool.Joined ↔ ∀ entry ∈ pool.entries, ∀ t, entry.2 = .utf8 t →
    ModifiedUtf8.decode (ModifiedUtf8.encode t) = .ok t := by
  refine forall₂_congr fun entry _ => ?_
  cases entry.2 with
  | utf8 t => simp [Constant.Joined, ModifiedUtf8.decode_encode_eq_ok]
  | _ => simp [Constant.Joined]

end ConstantPool

/-! ### What an edited pool leaves as it was -/

/-- Rows that are written the same make the same table. -/
theorem Writer.table_mono {α : Type} {write write' : α → Written} {items : List α} {bytes : Bytes}
    (h : ∀ a ∈ items, ∀ x, write a = .ok x → write' a = .ok x)
    (hwrite : Writer.table write items = .ok bytes) : Writer.table write' items = .ok bytes := by
  obtain ⟨hcount, y, hy, rfl⟩ := Writer.table_eq_ok.1 hwrite
  refine Writer.table_eq_ok.2 ⟨hcount, y, ?_, rfl⟩
  clear hwrite hcount
  induction items generalizing y with
  | nil => exact hy
  | cons a rest ih =>
    obtain ⟨x, y, hx, hy, rfl⟩ := hy
    obtain ⟨ha, hrest⟩ := List.forall_mem_cons.1 h
    exact ⟨x, y, ha x hx, ih hrest y hy, rfl⟩

/-- The names of attributes are in the other pool as they are in the one. -/
def ConstantPool.KeepsNames (pool pool' : ConstantPool) (sites : List (Site × NamedAttribute)) :
    Prop :=
  ∀ p ∈ sites, ∀ constant, pool.get? p.2.nameIndex = some constant →
    pool'.get? p.2.nameIndex = some constant

variable {pool pool' : ConstantPool} {site : Site}

/-- Contents other than code and records are written alike with any pool. -/
theorem Attribute.write_leaf {a : Attribute} (hcode : a.kind? ≠ some .code)
    (hrecord : a.kind? ≠ some .record) : a.write pool' = a.write pool := by
  cases a with
  | code body => exact absurd rfl hcode
  | record components => exact absurd rfl hrecord
  | _ => simp only [Attribute.write]

/-- The name of an attribute is still right if its constant is still the same. -/
theorem NamedAttribute.checkName_keeps {a : NamedAttribute}
    (h : ∀ constant, pool.get? a.nameIndex = some constant → pool'.get? a.nameIndex = some constant)
    (hcheck : checkName pool a = .ok ()) : checkName pool' a = .ok () := by
  rw [checkName_eq_ok] at hcheck ⊢
  cases hkind : a.content.kind? with
  | some kind =>
    rw [hkind] at hcheck
    exact h _ hcheck
  | none =>
    rw [hkind] at hcheck
    obtain ⟨h0, constant, hget, hmem⟩ := hcheck
    exact ⟨h0, constant, h _ hget, hmem⟩

/-- Attributes are written the same, as long as the names of all of them are there. -/
theorem Attribute.writeList_keeps (attributes : List NamedAttribute) {bytes : Bytes}
    (hnames : pool.KeepsNames pool' (NamedAttribute.allSites site attributes))
    (hwrite : Attribute.writeList pool attributes = .ok bytes) :
    Attribute.writeList pool' attributes = .ok bytes := by
  induction attributes using NamedAttribute.nested_induction generalizing site bytes with
  | nested attributes hcodes hrecords =>
    rw [writeList_eq_table] at hwrite ⊢
    refine Writer.table_mono (fun ⟨nameIndex, content⟩ ha x hx => ?_) hwrite
    obtain ⟨hcheck, body, hbody, hlength, rfl⟩ := NamedAttribute.write_eq_ok.1 hx
    refine NamedAttribute.write_eq_ok.2
      ⟨NamedAttribute.checkName_keeps (hnames _ (NamedAttribute.mem_allSites ha)) hcheck,
      body, ?_, hlength, rfl⟩
    by_cases hcode : content.kind? = some .code
    · obtain ⟨code, rfl⟩ := kind?_eq_some.1 hcode
      rw [Attribute.write] at hbody ⊢
      obtain ⟨w, hw, hcheck, y, hy, z, hz, rfl⟩ := Code.write_eq_ok.1 hbody
      have hinner :
          pool.KeepsNames pool' (NamedAttribute.allSites (site.inCode code) code.attributes) :=
        fun p hp =>
          hnames p (NamedAttribute.Within.code ha (NamedAttribute.within_of_mem _ hp)).mem_allSites
      exact Code.write_eq_ok.2 ⟨w, hw, hcheck, y, hy, z, hcodes nameIndex code ha hinner hz, rfl⟩
    by_cases hrecord : content.kind? = some .record
    · obtain ⟨components, rfl⟩ := kind?_eq_some.1 hrecord
      rw [write_record] at hbody ⊢
      refine Writer.table_mono (fun component hc x hx => ?_) hbody
      obtain ⟨z, hz, rfl⟩ := RecordComponent.write_eq_ok.1 hx
      have hinner : pool.KeepsNames pool' (NamedAttribute.allSites site.inComponent
          component.attributes) :=
        fun p hp =>
          hnames p (NamedAttribute.Within.component ha hc
          (NamedAttribute.within_of_mem _ hp)).mem_allSites
      exact RecordComponent.write_eq_ok.2 ⟨z,
        hrecords nameIndex components ha component hc hinner hz, rfl⟩
    · exact (write_leaf hcode hrecord).trans hbody

/-- Attributes are admitted as they were, as long as the names of all of them are there. -/
theorem AllAdmitted.keeps {options : ReadOptions} {sites : List (Site × NamedAttribute)}
    (h : AllAdmitted pool options sites) (hkeeps : pool.Keeps pool')
    (hnames : pool.KeepsNames pool' sites) : AllAdmitted pool' options sites := by
  intro p hp
  have hp' := h p hp
  refine ⟨hkeeps.refers hp'.name, ?_, ⟨fun r hr => hkeeps.resolves (hp'.content.references r hr),
    hp'.content.offsets, hp'.content.nests, fun t ht => ⟨(hp'.content.annotatedTypes t ht).1, ?_⟩⟩,
    hp'.code⟩
  · have hregistered := hp'.registered
    rw [NamedAttribute.Registered] at hregistered ⊢
    cases hkind : p.2.content.kind? with
    | some kind => rwa [hkind] at hregistered
    | none =>
      rw [hkind] at hregistered
      -- The name is the one that is registered for no such list.
      obtain ⟨-, constant, hget, -⟩ := hp'.name
      have hget' := hnames p hp constant hget
      intro kind hholds
      refine hregistered kind ?_
      rw [ConstantPool.holdsText_iff] at hholds ⊢
      exact hget.trans (hget'.symm.trans hholds)
  · have hbounded := (hp'.content.annotatedTypes t ht).2
    cases hinfo : t.info <;> rw [hinfo] at hbounded <;> exact hbounded

/-! ### Class files -/

namespace ClassFile

variable {c : ClassFile} {options : ReadOptions} {bytes written : Bytes} {constant : Constant}

/-- The constant can be written, and the bootstrap method that it refers to is one of the class. -/
structure Accepts (c : ClassFile) (constant : Constant) : Prop where
  text : ∀ t, constant = .utf8 t → (ModifiedUtf8.encode t).length ≤ 65535
  bootstrap : ∀ n, constant.bootstrap? = some n → n.toNat < c.bootstrapCount

/-- What edits make of the pool of a class file that keep to what the rest of it relies on. -/
inductive Edited (c : ClassFile) : ConstantPool → Prop
  | unedited : Edited c c.pool
  | push {pool pool' : ConstantPool} {constant : Constant} {index : UInt16} (h : Edited c pool)
    (haccepts : c.Accepts constant) (hpush : pool.push constant = .ok (pool', index)) :
    Edited c pool'
  | replace {pool pool' : ConstantPool} {constant old : Constant} {index : UInt16}
    (h : Edited c pool) (haccepts : c.Accepts constant)
    (hreplace : pool.replace index constant = .ok (pool', old)) (hkind : constant.kind = old.kind)
    (hnames : ∀ p ∈ c.sites, p.2.nameIndex ≠ index) : Edited c pool'

/-- What the rest of a class file relies on is in the pool, which itself holds together and can be
    written. -/
structure Kept (c : ClassFile) (pool : ConstantPool) : Prop where
  wellFormed : pool.WellFormed
  keeps : c.pool.Keeps pool
  names : c.pool.KeepsNames pool c.sites
  accepts : ∀ entry ∈ pool.entries, c.Accepts entry.2

/-- One more constant keeps the class file. -/
theorem Kept.push {index : UInt16} (h : c.Kept pool) (haccepts : c.Accepts constant)
    (hpush : pool.push constant = .ok (pool', index)) : c.Kept pool' := by
  obtain ⟨-, -, rfl, -⟩ := ConstantPool.push_eq_ok.1 hpush
  exact ⟨h.wellFormed.push hpush, h.keeps.trans (ConstantPool.keeps_append _ _),
    fun p hp held hget => ConstantPool.get?_append (h.names p hp held hget),
    ConstantPool.forall_entries_append h.accepts haccepts⟩

/-- Another constant of the same kind keeps the class file, unless it is the name of an attribute.
    -/
theorem Kept.replace {index : UInt16} {old : Constant} (h : c.Kept pool)
    (haccepts : c.Accepts constant) (hreplace : pool.replace index constant = .ok (pool', old))
    (hkind : constant.kind = old.kind) (hnames : ∀ p ∈ c.sites, p.2.nameIndex ≠ index) :
    c.Kept pool' := by
  have hwell := h.wellFormed.replace hreplace
  obtain ⟨-, hget, -, rfl, -⟩ := ConstantPool.replace_eq_ok.1 hreplace
  exact ⟨hwell, h.keeps.trans (ConstantPool.keeps_put hget hkind),
    fun p hp held hheld => (ConstantPool.get?_put_of_ne (hnames p hp)).trans
    (h.names p hp held hheld), ConstantPool.forall_entries_put h.accepts haccepts⟩

/-- Every edit preserves what the rest of the class file relies on. -/
theorem Edited.kept (h : c.Edited pool) (hunedited : c.Kept c.pool) : c.Kept pool := by
  induction h with
  | unedited => exact hunedited
  | push _ haccepts hpush ih => exact ih.push haccepts hpush
  | replace _ haccepts hreplace hkind hnames ih => exact ih.replace haccepts hreplace hkind hnames

/-- The rest of a class file is written as before. -/
theorem Kept.body {y : Bytes} (h : c.Kept pool) (hbody : c.body = .ok y) :
    { c with pool }.body = .ok y := by
  have hsites := forall_mem_sites.1 h.names
  obtain ⟨a, ha, b, hb, d, hd, e, he, rfl⟩ := body_eq_ok.1 hbody
  have hmember {location : Location} {m : Member}
      (hnames : c.pool.KeepsNames pool (m.sites location c.interfaces.length)) (x : Bytes)
      (hx : m.write c.pool = .ok x) : m.write pool = .ok x := by
    obtain ⟨z, hz, rfl⟩ := Member.write_eq_ok.1 hx
    exact Member.write_eq_ok.2 ⟨z, Attribute.writeList_keeps _ hnames hz, rfl⟩
  exact body_eq_ok.2 ⟨a, ha, b, Writer.table_mono (fun m hm => hmember (hsites.1 m hm)) hb, d,
    Writer.table_mono (fun m hm => hmember (hsites.2.1 m hm)) hd, e,
    Attribute.writeList_keeps _ hsites.2.2 he, rfl⟩

/-- The class file is admitted as before. -/
theorem Kept.admitted (h : c.Kept pool) (hadmitted : c.Admitted options) :
    { c with pool }.Admitted options := by
  have hsites := forall_mem_sites.1 h.names
  have hmember {location : Location} {m : Member}
      (hnames : c.pool.KeepsNames pool (m.sites location c.interfaces.length))
      (hm : m.Admitted c.pool options location c.interfaces.length) :
      m.Admitted pool options location c.interfaces.length :=
    ⟨fun r hr => h.keeps.resolves (hm.references r hr), hm.sites.keeps h.keeps hnames, hm.throws⟩
  exact ⟨fun r hr => h.keeps.resolves (hadmitted.references r hr), fun m hm =>
    hmember (hsites.1 m hm) (hadmitted.fields m hm), fun m hm => hmember (hsites.2.1 m hm)
    (hadmitted.methods m hm), hadmitted.sites.keeps h.keeps hsites.2.2,
        checkBootstrapIndices_eq_ok.2 fun entry hentry => (h.accepts entry hentry).bootstrap⟩

/-- A class file that was read, and that can be written, has in its pool what its rest relies on. -/
theorem kept_of_ofBytes (h : ofBytes options bytes = .ok c) (hwrite : c.toBytes = .ok written) :
    c.Kept c.pool := by
  obtain ⟨x, y, hspelled, hresolved, -, hadmitted, -⟩ := ofBytes_eq_ok.1 h
  obtain ⟨constants, _, hlaid, hcount, -, -⟩ := hspelled
  obtain ⟨x', hx', -⟩ := toBytes_eq_ok.1 hwrite
  have hfits := ((ConstantPool.write_eq_ok hlaid hcount).1 hx').1
  refine ⟨⟨⟨constants, hlaid⟩, Nat.le_of_lt_succ hcount, hresolved⟩, fun _ constant hget =>
    ⟨constant, hget, rfl⟩, fun _ _ _ hget => hget, fun entry hentry =>
    ⟨Constant.fits_iff.1 (hfits entry hentry), ?_⟩⟩
  exact checkBootstrapIndices_eq_ok.1 hadmitted.bootstrap entry hentry

/-- A class file that was read and can be written can be written with an edited pool, and is then
    read back as it is: the edits change nothing of how the rest is written or read. -/
theorem ofBytes_edited (h : ofBytes options bytes = .ok c) (hwrite : c.toBytes = .ok written)
    (hedited : c.Edited pool) (htexts : ∀ entry ∈ pool.entries, ∀ t, entry.2 = .utf8 t →
      ModifiedUtf8.decode (ModifiedUtf8.encode t) = .ok t) :
    ∃ out, { c with pool }.toBytes = .ok out ∧ ofBytes options out = .ok { c with pool } ∧
      { c with pool }.body = c.body := by
  have hkept := hedited.kept (kept_of_ofBytes h hwrite)
  obtain ⟨-, -, -, -, -, hadmitted, -⟩ := ofBytes_eq_ok.1 h
  obtain ⟨-, -, y, hy, -⟩ := toBytes_eq_ok.1 hwrite
  obtain ⟨constants, hlaid⟩ := hkept.wellFormed.laidOut
  have hx := (ConstantPool.write_eq_ok hlaid (Nat.lt_succ_of_le hkept.wellFormed.count_le)).2
    ⟨fun entry hentry => Constant.fits_iff.2 (hkept.accepts entry hentry).text, rfl⟩
  refine ⟨_, toBytes_eq_ok.2 ⟨_, hx, y, hkept.body hy, rfl⟩, ofBytes_eq_ok.2 ⟨_, y,
    (hkept.wellFormed.spelled_of_write hx).2 (ConstantPool.joined_iff.2 htexts),
      hkept.wellFormed.resolved, hkept.body hy,
      hkept.admitted hadmitted, rfl⟩, (hkept.body hy).trans hy.symm⟩

/-- The pool of `thrower` with another name for the class, and a number added. -/
def renamed : ConstantPool :=
  ⟨#[none, some (.ofString "B"), some (.classref 1), some (.ofString "()V"),
    some (.ofString "Code"), some (.integer 7)]⟩

/-- The text that is replaced names no attribute. -/
theorem edited_renamed : thrower.Edited renamed := by
  have hseven : thrower.Accepts (.integer 7) := ⟨by simp, by simp [Constant.bootstrap?]⟩
  have hname : thrower.Accepts (.ofString "B") := by
    refine ⟨fun t ht => ?_, by simp [Constant.ofString, Constant.bootstrap?]⟩
    cases ht
    decide
  have hpushed : thrower.Edited (thrower.pool.append (.integer 7)) :=
    .push .unedited hseven (by rfl)
  have hreplace : (thrower.pool.append (.integer 7)).replace 1 (.ofString "B") =
    .ok (renamed, .ofString "A") := rfl
  refine .replace hpushed hname hreplace rfl ?_
  -- The one attribute has its name at index 4.
  simp [sites, thrower, Member.sites, NamedAttribute.allSites_eq_flatMap, NamedAttribute.sites_eq,
    Attribute.sites, Code.sites_eq]

/-- The class with another name is written and read back. -/
theorem ofBytes_edited_renamed :
    ofBytes {} throwerBytes = .ok thrower ∧ thrower.toBytes = .ok throwerBytes ∧
    thrower.Edited renamed ∧ ∃ out, { thrower with pool := renamed }.toBytes = .ok out ∧
      ofBytes {} out = .ok { thrower with pool := renamed } ∧
        { thrower with pool := renamed }.body = thrower.body := by
  refine ⟨ofBytes_thrower, toBytes_thrower, edited_renamed,
    ofBytes_edited ofBytes_thrower toBytes_thrower edited_renamed ?_⟩
  exact ConstantPool.joined_iff.1 (by decide)

end ClassFile

end ClassFormat
