import Mathlib
import ClassFormat.Proofs.ClassFile.Codec

/-!
# Writing what was read

A class file that was read is written as it was, byte for byte, but for the contents of texts:
these are written in one way, however they were stored.

* `ConstantPool.storedAs`: the bytes of a pool with given contents for its texts;
* `ClassFile.Source`: the parts of a byte string that a class file was read from;
* `ClassFile.toBytes_of_ofBytes`: the same parts are written, other than how texts are stored.
-/

namespace ClassFormat

/-- Values that each have a spelling for each content are spelled with contents of all of them. -/
theorem Spelling.each_exists {α β : Type} {P : α → β → Prop} {f : α → β → Bytes} (items : List α)
    {bytes : Bytes} : each (fun a x => ∃ b, P a b ∧ x = f a b) items bytes ↔
      ∃ contents, List.Forall₂ P items contents ∧ bytes = (items.zipWith f contents).flatten := by
  induction items generalizing bytes with
  | nil => simp
  | cons a rest ih =>
    simp only [each_cons, ih, List.forall₂_cons_left_iff]
    constructor
    · rintro ⟨_, _, ⟨b, hb, rfl⟩, ⟨contents, hall, rfl⟩, rfl⟩
      exact ⟨b :: contents, ⟨b, contents, hb, hall, rfl⟩, rfl⟩
    · rintro ⟨_, ⟨b, contents, hb, hall, rfl⟩, rfl⟩
      exact ⟨_, _, ⟨b, hb, rfl⟩, ⟨contents, hall, rfl⟩, rfl⟩

/-! ### Constants -/

namespace Constant

variable {constant : Constant} {content : Bytes}

/-- A text that was stored as it is written can be written. -/
theorem HasContent.eq_content (h : constant.HasContent content)
    (ht : ∀ t, constant = .utf8 t → content = ModifiedUtf8.encode t) :
    content = constant.content ∧ constant.Fits := by
  cases constant with
  | utf8 t =>
    obtain rfl := ht t rfl
    exact ⟨rfl, h.1⟩
  | _ => exact ⟨h, by simp [Fits, Constant.content]⟩

end Constant

/-! ### Pools -/

namespace ConstantPool

variable {pool : ConstantPool} {bytes : Bytes}

/-- The bytes of a pool, `contents` being those of the texts, and empty for other constants. -/
def storedAs (pool : ConstantPool) (contents : List Bytes) : Bytes :=
  Writer.u2 (UInt16.ofNat pool.count) ++
    (pool.entries.zipWith (fun entry content => entry.2.storedAs content) contents).flatten

/-- The contents with which the constants of a pool are written. -/
def contents (pool : ConstantPool) : List Bytes := pool.entries.map fun entry => entry.2.content

/-- The contents can be stored, and stand for the texts of the pool. -/
def HasContents (pool : ConstantPool) (contents : List Bytes) : Prop :=
  List.Forall₂ (fun entry content => entry.2.HasContent content) pool.entries contents

/-- A pool is stored as some contents of its constants, which need not be those that it is written
    with. -/
theorem Spelled.exists_contents (h : pool.Spelled bytes) :
    pool.count < 65536 ∧ (∃ constants, pool.LaidOut constants) ∧
      ∃ contents, pool.HasContents contents ∧ bytes = pool.storedAs contents := by
  obtain ⟨constants, y, hlaid, hcount, hy, rfl⟩ := h
  rw [← hlaid.entries_eq, Spelling.each_map] at hy
  obtain ⟨contents, hcontents, rfl⟩ := (Spelling.each_exists pool.entries).1 hy
  exact ⟨hcount, ⟨constants, hlaid⟩, contents, hcontents, rfl⟩

/-- A pool is written with the contents that its constants are written as, if all of these fit. -/
theorem write_eq_ok {constants : List Constant} (hlaid : pool.LaidOut constants)
    (hcount : pool.count < 65536) :
    pool.write = .ok bytes ↔ (∀ entry ∈ pool.entries, entry.2.Fits) ∧
      bytes = pool.storedAs pool.contents := by
  have hstored : pool.storedAs pool.contents = Writer.u2 (UInt16.ofNat pool.count) ++
      constants.flatMap fun constant => constant.storedAs constant.content := by
    rw [storedAs, contents, List.zipWith_map_right, List.zipWith_self, ← hlaid.entries_eq,
      List.flatMap_map, List.flatMap]
  have hfits : (∀ constant ∈ constants, constant.Fits) ↔ ∀ entry ∈ pool.entries, entry.2.Fits := by
    rw [← hlaid.entries_eq, List.forall_mem_map]
  rw [hlaid.write_eq_ok, hstored, hfits, and_iff_right hcount]

/-- Contents that are as texts are written are those with which the pool is written. -/
theorem HasContents.eq_contents {contents : List Bytes} (h : pool.HasContents contents)
    (htexts : List.Forall₂ (fun entry content => ∀ t, entry.2 = .utf8 t →
      content = ModifiedUtf8.encode t) pool.entries contents) :
    contents = pool.contents ∧ ∀ entry ∈ pool.entries, entry.2.Fits := by
  unfold HasContents at h
  unfold ConstantPool.contents
  generalize pool.entries = entries at h htexts ⊢
  induction h with
  | nil => simp
  | cons hcontent _ ih =>
    obtain ⟨ht, hrest⟩ := List.forall₂_cons.1 htexts
    obtain ⟨rfl, hfits⟩ := hcontent.eq_content ht
    obtain ⟨hcontents, hall⟩ := ih hrest
    rw [hcontents]
    exact ⟨rfl, List.forall_mem_cons.2 ⟨hfits, hall⟩⟩

end ConstantPool

namespace ClassFile

variable {c : ClassFile} {options : ReadOptions} {bytes : Bytes}

/-- The parts of a byte string that a class file was read from. -/
structure Source (c : ClassFile) (bytes : Bytes) where
  head : Bytes
  contents : List Bytes
  rest : Bytes
  eq : bytes = head ++ (c.pool.storedAs contents ++ rest)
  length_head : head.length = 8
  hasContents : c.pool.HasContents contents
  /-- The pool is what the reader of pools takes off. -/
  read : ∀ cursor : Cursor, cursor.rest = c.pool.storedAs contents ++ rest →
    ∃ cursor', ConstantPool.read cursor = .ok c.pool cursor' ∧ cursor'.rest = rest

/-- What is written is what was read, other than that texts are as they are written. -/
structure Source.Preserved (source : c.Source bytes) : Prop where
  /-- The same head, the same constants and the same rest are written, if anything is. -/
  written : ∀ out, c.toBytes = .ok out ↔ (∀ entry ∈ c.pool.entries, entry.2.Fits) ∧
    out = source.head ++ (c.pool.storedAs c.pool.contents ++ source.rest)
  /-- If texts were stored as they are written, nothing is different. -/
  unchanged : List.Forall₂ (fun entry content => ∀ t, entry.2 = .utf8 t →
    content = ModifiedUtf8.encode t) c.pool.entries source.contents → c.toBytes = .ok bytes
  /-- If nothing is written, then a text is too long as it is written. -/
  tooLong : ∀ f, c.toBytes = .error f → ∃ index t, (index, .utf8 t) ∈ c.pool.entries ∧
    65535 < (ModifiedUtf8.encode t).length

/-- What is written for a class file that was read is what it was read from, byte for byte, outside
    of the contents of texts. -/
theorem toBytes_of_ofBytes (h : ofBytes options bytes = .ok c) :
    ∃ source : c.Source bytes, source.Preserved := by
  obtain ⟨x, y, hspelled, hresolved, hbody, -, rfl⟩ := ofBytes_eq_ok.1 h
  obtain ⟨hcount, ⟨constants, hlaid⟩, contents, hcontents, rfl⟩ := hspelled.exists_contents
  have hwrite (out : Bytes) : c.toBytes = .ok out ↔ (∀ entry ∈ c.pool.entries, entry.2.Fits) ∧
      out = c.head ++ (c.pool.storedAs c.pool.contents ++ y) := by
    simp only [toBytes_eq_ok, ConstantPool.write_eq_ok hlaid hcount, hbody, Except.ok.injEq]
    constructor
    · rintro ⟨_, ⟨hfits, rfl⟩, _, rfl, rfl⟩
      exact ⟨hfits, rfl⟩
    · rintro ⟨hfits, rfl⟩
      exact ⟨_, ⟨hfits, rfl⟩, _, rfl, rfl⟩
  let source : c.Source (c.head ++ (c.pool.storedAs contents ++ y)) :=
    { head := c.head, contents, rest := y, eq := rfl,
      length_head := by simp [head, Writer.u4, Writer.u2]
      hasContents := hcontents
      read := fun cursor hc => by
        obtain ⟨cursor', hread, past⟩ := ConstantPool.reads_read.complete ⟨hspelled, hresolved⟩ hc
        exact ⟨cursor', hread, past.rest_eq hc⟩ }
  refine ⟨source, hwrite, fun htexts => ?_, fun f hf => ?_⟩
  · obtain ⟨heq, hfits⟩ := hcontents.eq_contents htexts
    exact (hwrite _).2 ⟨hfits, by rw [heq]⟩
  · -- If all texts were short enough, something would be written.
    by_contra hshort
    push Not at hshort
    have hfits : ∀ entry ∈ c.pool.entries, entry.2.Fits := by
      rintro ⟨index, constant⟩ hmem
      refine Constant.fits_iff.2 fun t ht => hshort index t ?_
      rwa [← ht]
    rw [(hwrite _).2 ⟨hfits, rfl⟩] at hf
    cases hf

/-- What is kept of the bytes of the class. -/
theorem toBytes_of_ofBytes_thrower : ofBytes {} throwerBytes = .ok thrower ∧
    ∃ source : thrower.Source throwerBytes, source.Preserved :=
  ⟨ofBytes_thrower, toBytes_of_ofBytes ofBytes_thrower⟩

end ClassFile

end ClassFormat
