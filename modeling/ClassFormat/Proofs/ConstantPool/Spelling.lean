import Mathlib
import ClassFormat.ConstantPool.Codec
import ClassFormat.Proofs.ConstantPool.Layout

/-!
# Pools as they are stored

A text may be stored in more than one way, everything else in the pool in one way only. So a
constant is spelled in each way in which its text, if it is one, may be stored, and is written
in one of them.

* `Constant.storedAs`: the bytes of a constant with a given content for its text;
* `Constant.Spelled`: the spellings that are read, and `Constant.write_eq_ok`;
* `ConstantPool.reads_read`, `ConstantPool.LaidOut.write_eq_ok`: pools;
* `ConstantPool.Built`: the pools that come about by reading and editing.
-/

namespace ClassFormat

open Reader

namespace Constant

variable {constant : Constant} {bytes : Bytes}

/-- The bytes of a constant after its tag, those of a text being `content`. -/
def payloadAs (content : Bytes) : Constant → Bytes
  | utf8 _ => Writer.u2 (UInt16.ofNat content.length) ++ content
  | integer value => Writer.i4 value
  | float bits => Writer.u4 bits
  | long value => Writer.i8 value
  | double bits => Writer.u8 bits
  | .classref i | string i | methodType i | module i | package i => Writer.u2 i
  | fieldref i j | methodref i j | interfaceMethodref i j | nameAndType i j | dynamic i j
  | invokeDynamic i j => Writer.u2 i ++ Writer.u2 j
  | methodHandle kind i => Writer.u1 kind ++ Writer.u2 i

/-- The bytes of a constant, those of a text being `content`. -/
def storedAs (content : Bytes) (constant : Constant) : Bytes :=
  Writer.u1 constant.kind.tag ++ constant.payloadAs content

/-- The content by which a text is written. Other constants have none. -/
def content : Constant → Bytes
  | utf8 t => ModifiedUtf8.encode t
  | _ => []

/-- The content can be stored, and stands for the text of the constant, if it is one. -/
def HasContent (constant : Constant) (content : Bytes) : Prop :=
  match constant with
  | utf8 t => content.length < 65536 ∧ ModifiedUtf8.decode content = .ok t
  | _ => content = []

/-- The spellings of a constant. -/
def Spelled : Spelling Constant := fun constant bytes =>
  ∃ content, constant.HasContent content ∧ bytes = constant.storedAs content

/-- The constant can be written. -/
def Fits (constant : Constant) : Prop := constant.content.length < 65536

/-- Only texts may be too long to be written. -/
theorem fits_iff :
    constant.Fits ↔ ∀ t, constant = .utf8 t → (ModifiedUtf8.encode t).length ≤ 65535 := by
  cases constant with
  | utf8 t =>
    rw [Fits, Constant.content, Nat.lt_succ_iff]
    exact ⟨fun h t' ht => by cases ht; exact h, fun h => h t rfl⟩
  | _ => simp [Fits, Constant.content]

/-- A constant is written with its own content if that fits. -/
theorem write_eq_ok :
    constant.write = .ok bytes ↔ bytes = constant.storedAs constant.content ∧ constant.Fits := by
  cases constant with
  | utf8 t =>
    simp only [write, payload, bind_eq_ok, pure_eq_ok, inside_eq_ok, Writer.count_u2_eq_ok]
    constructor
    · rintro ⟨_, ⟨_, ⟨hn, rfl⟩, rfl⟩, rfl⟩
      exact ⟨rfl, hn⟩
    · rintro ⟨rfl, hn⟩
      exact ⟨_, ⟨_, ⟨hn, rfl⟩, rfl⟩, rfl⟩
  | _ => simp [write, payload, Fits, content, storedAs, payloadAs, eq_comm (b := bytes)]

/-- A tag stands for the one kind that has it. -/
theorem Kind.ofTag?_eq_some {tag : UInt8} {kind : Kind} :
    Kind.ofTag? tag = some kind ↔ tag = kind.tag := by
  refine ⟨fun h => ?_, fun h => h ▸ ofTag?_tag kind⟩
  have := List.find?_some h
  simpa [eq_comm] using this

/-- What is read is a constant and how it is stored. -/
theorem reads_read (index : UInt16) : (read index).Reads Spelled := by
  refine (reads_u1.bind (M := fun tag constant y => Kind.ofTag? tag = some constant.kind ∧
    ∃ content, constant.HasContent content ∧ y = constant.payloadAs content) fun tag => ?_).congr
      fun constant bytes => ?_
  · rcases Kind.ofTag? tag with _ | kind
    · exact (Reads.raise _).congr fun constant y => by simp
    · cases kind
      case utf8 =>
        refine (reads_u2.bind fun n => (reads_bytes n.toNat).bind
          (M := fun content constant y => ∃ t, ModifiedUtf8.decode content = .ok t ∧
          constant = utf8 t ∧ y = []) fun content => ?_).congr fun constant y => ?_
        · cases ModifiedUtf8.decode content with
          | ok t => exact (Reads.pure _).congr fun constant y => by simp
          | error defect => exact (Reads.raise _).congr fun constant y => by simp
        · constructor
          · rintro ⟨n, _, rfl, _, ⟨stored, _, ⟨rfl, hn⟩, _, ⟨t, ht, rfl, rfl⟩, rfl⟩, rfl⟩
            exact ⟨rfl, _, ⟨hn ▸ n.toNat_lt, ht⟩, by simp [payloadAs, hn]⟩
          · rintro ⟨hkind, content, hcontent, rfl⟩
            cases constant <;> cases hkind
            obtain ⟨hn, ht⟩ := hcontent
            exact ⟨_, _, rfl, _, ⟨content, _, ⟨rfl, (UInt16.toNat_ofNat_of_lt' hn).symm⟩, [],
              ⟨_, ht, rfl, rfl⟩, rfl⟩, by simp [payloadAs]⟩
      case integer =>
        exact (reads_i4.bind fun n => Reads.pure _).congr fun constant y => by
          cases constant <;> simp [kind, HasContent, payloadAs]
      case float =>
        exact (reads_u4.bind fun n => Reads.pure _).congr fun constant y => by
          cases constant <;> simp [kind, HasContent, payloadAs]
      case long =>
        exact (reads_i8.bind fun n => Reads.pure _).congr fun constant y => by
          cases constant <;> simp [kind, HasContent, payloadAs]
      case double =>
        exact (reads_u8.bind fun n => Reads.pure _).congr fun constant y => by
          cases constant <;> simp [kind, HasContent, payloadAs]
      case classref | string | methodType | module | package =>
        exact (reads_u2.bind fun n => Reads.pure _).congr fun constant y => by
          cases constant <;> simp [kind, HasContent, payloadAs]
      case methodHandle =>
        exact (reads_u1.bind fun n => reads_u2.bind fun n => Reads.pure _).congr
            fun constant y => by
          cases constant <;> simp [kind, HasContent, payloadAs]
      all_goals
        exact (reads_u2.bind fun n => reads_u2.bind fun n => Reads.pure _).congr
            fun constant y => by
          cases constant <;> simp [kind, HasContent, payloadAs]
  · simp only [Kind.ofTag?_eq_some]
    constructor
    · rintro ⟨_, _, rfl, _, ⟨rfl, content, hcontent, rfl⟩, rfl⟩
      exact ⟨content, hcontent, rfl⟩
    · rintro ⟨content, hcontent, rfl⟩
      exact ⟨_, _, rfl, _, ⟨rfl, content, hcontent, rfl⟩, rfl⟩

end Constant

namespace ConstantPool

variable {pool : ConstantPool} {constants : List Constant} {bytes : Bytes}

/-- Constants on the given number of slots, added to those of an array. -/
def Filled (done : Array (Option Constant)) (left : Nat) : Spelling (Array (Option Constant)) :=
  fun slots bytes => ∃ constants : List Constant,
    slots.toList = done.toList ++ constants.flatMap slotsOf ∧
      (constants.flatMap slotsOf).length = left ∧ Constant.Spelled.each constants bytes

/-- The first of the constants that are added takes up its own slots. -/
theorem filled_cons {done : Array (Option Constant)} {left : Nat}
    {slots : Array (Option Constant)} :
    Filled done (left + 1) slots bytes ↔ ∃ constant x, Constant.Spelled constant x ∧
      ∃ y, (∃ rest, constant.kind.slots + rest = left + 1 ∧
        Filled (done ++ slotsOf constant) rest slots y) ∧ bytes = x ++ y := by
  constructor
  · rintro ⟨_ | ⟨constant, constants⟩, hslots, hlength, hbytes⟩
    · cases hlength
    · obtain ⟨x, y, hx, hy, rfl⟩ := hbytes
      refine ⟨constant, x, hx, y, ⟨_, by simpa using hlength, constants, ?_, rfl, hy⟩, rfl⟩
      rw [hslots, List.flatMap_cons, Array.toList_appendList, List.append_assoc]
  · rintro ⟨constant, x, hx, y, ⟨rest, hlength, constants, hslots, rfl, hy⟩, rfl⟩
    refine ⟨constant :: constants, ?_, by simpa using hlength, x, y, hx, hy, rfl⟩
    rw [hslots, List.flatMap_cons, Array.toList_appendList, List.append_assoc]

/-- Nothing is read once there are no slots left. -/
theorem filled_zero {done slots : Array (Option Constant)} :
    Filled done 0 slots bytes ↔ slots = done ∧ bytes = [] := by
  constructor
  · rintro ⟨_ | ⟨constant, constants⟩, hslots, hlength, hbytes⟩
    · exact ⟨Array.toList_inj.1 (by simpa using hslots), hbytes⟩
    · have := constant.kind.slots_pos
      simp at hlength
      omega
  · rintro ⟨rfl, rfl⟩
    exact ⟨[], by simp, rfl, rfl⟩

/-- Slots are read until none are left. -/
theorem reads_readSlots (left : Nat) (done : Array (Option Constant)) :
    (readSlots done left).Reads (Filled done left) := by
  -- A wide constant takes up two of the slots that are left.
  induction left using Nat.strongRecOn generalizing done with
  | ind left ih =>
    rcases left with _ | left
    · exact (Reads.pure done).congr fun slots bytes => filled_zero.symm
    · rw [readSlots]
      refine (Reads.offset fun offset =>
        (Constant.reads_read (UInt16.ofNat done.size)).within.bind (M := fun constant slots y =>
          ∃ rest, constant.kind.slots + rest = left + 1 ∧ Filled (done ++ slotsOf constant) rest
            slots y) fun constant => ?_).congr fun slots bytes => filled_cons.symm
      split
      next wide =>
        have hslots : (done.push (some constant)).push none = done ++ slotsOf constant := by
          simp [slotsOf, wide]
        rcases left with _ | left
        · refine (Reads.raise _).congr fun slots y => ⟨False.elim, ?_⟩
          rintro ⟨rest, hrest, -⟩
          omega
        · refine (ih left (by omega) _).congr fun slots y => ?_
          simp [wide, hslots, show ∀ rest, 2 + rest = left + 1 + 1 ↔ rest = left by omega]
      next narrow =>
        have hslots : done.push (some constant) = done ++ slotsOf constant := by
          simp [slotsOf, narrow]
        have hone : constant.kind.slots = 1 := by
          cases h : constant.kind <;> simp_all [Constant.Kind.slots]
        refine (ih left (by omega) _).congr fun slots y => ?_
        simp [hone, hslots, show ∀ rest, 1 + rest = left + 1 ↔ rest = left by omega]

/-- The spellings of a pool: those of its constants, after its count. -/
def Spelled : Spelling ConstantPool := fun pool bytes => ∃ constants y, pool.LaidOut constants ∧
  pool.count < 65536 ∧ Constant.Spelled.each constants y ∧
    bytes = Writer.u2 (UInt16.ofNat pool.count) ++ y

/-- What is read is a pool, how it is stored, and that its references resolve. -/
theorem reads_read : read.Reads fun pool bytes => Spelled pool bytes ∧ pool.Resolved := by
  refine (reads_u2.bind (M := fun count pool y => ∃ constants, pool.LaidOut constants ∧
    pool.count = count.toNat ∧ Constant.Spelled.each constants y ∧ pool.Resolved)
      fun count => ?_).congr fun pool bytes => ?_
  · split
    next h =>
      refine (Reads.raise _).congr fun pool y => ⟨False.elim, ?_⟩
      rintro ⟨constants, hlaid, hcount, -, -⟩
      rw [hlaid.count_eq, h] at hcount
      cases hcount
    next left h =>
      refine ((reads_readSlots left #[none]).bind fun slots =>
        Reads.guard _ fun _ => Reads.pure (⟨slots⟩ : ConstantPool)).congr fun pool y => ?_
      constructor
      · rintro ⟨slots, x, ⟨constants, hlaid, rfl, hx⟩, _, ⟨hvalid, rfl, rfl⟩, rfl⟩
        exact ⟨constants, hlaid, (LaidOut.count_eq hlaid).trans h.symm, by simpa using hx,
          validate_eq_ok.1 (exists_unit_eq_ok.1 hvalid)⟩
      · rintro ⟨constants, hlaid, hcount, hy, hres⟩
        rw [hlaid.count_eq, h] at hcount
        exact ⟨pool.slots, y, ⟨constants, hlaid, Nat.succ_inj.1 hcount, hy⟩, [],
          ⟨⟨_, validate_eq_ok.2 hres⟩, rfl, rfl⟩, (List.append_nil y).symm⟩
  · constructor
    · rintro ⟨count, _, rfl, y, ⟨constants, hlaid, hcount, hy, hres⟩, rfl⟩
      exact ⟨⟨constants, y, hlaid, hcount ▸ count.toNat_lt, hy, by simp [hcount]⟩, hres⟩
    · rintro ⟨⟨constants, y, hlaid, hcount, hy, rfl⟩, hres⟩
      exact ⟨_, _, rfl, y, ⟨constants, hlaid, (UInt16.toNat_ofNat_of_lt' hcount).symm,
        hy, hres⟩, rfl⟩

/-- A pool is written if its count and all of its texts fit. -/
theorem LaidOut.write_eq_ok (h : pool.LaidOut constants) :
    pool.write = .ok bytes ↔ pool.count < 65536 ∧ (∀ constant ∈ constants, constant.Fits) ∧
      bytes = Writer.u2 (UInt16.ofNat pool.count) ++
        constants.flatMap fun constant => constant.storedAs constant.content := by
  have hrows {y : Bytes} : Spelling.each (fun entry x => entry.2.write = .ok x) pool.entries y ↔
      y = (constants.flatMap fun constant => constant.storedAs constant.content) ∧
        ∀ constant ∈ constants, constant.Fits := by
    refine (Spelling.each_map Prod.snd pool.entries (L := fun (constant : Constant) x =>
      constant.write = .ok x)).symm.trans ?_
    simp only [h.entries_eq, Constant.write_eq_ok, Spelling.each_and, Spelling.each_eq]
  simp only [write, bind_eq_ok, pure_eq_ok, Writer.count_u2_eq_ok, Writer.rows_eq_ok,
    inside_eq_ok, hrows]
  constructor
  · rintro ⟨_, ⟨hcount, rfl⟩, _, ⟨rfl, hfits⟩, rfl⟩
    exact ⟨hcount, hfits, rfl⟩
  · rintro ⟨hcount, hfits, rfl⟩
    exact ⟨_, ⟨hcount, rfl⟩, _, ⟨rfl, hfits⟩, rfl⟩

/-! ### Pools that can be built -/

/-- What reading and editing make of pools. -/
inductive Built : ConstantPool → Prop
  | empty : Built empty
  | read {pool : ConstantPool} {c c' : Cursor} (h : read c = .ok pool c') : Built pool
  | push {pool pool' : ConstantPool} {c : Constant} {index : UInt16} (hpool : Built pool)
    (h : pool.push c = .ok (pool', index)) : Built pool'
  | replace {pool pool' : ConstantPool} {constant old : Constant} {index : UInt16}
    (hpool : Built pool) (h : pool.replace index constant = .ok (pool', old)) : Built pool'

/-- Every pool that can be built is laid out, fits its count, and is resolved. -/
theorem Built.wellFormed (h : pool.Built) : pool.WellFormed := by
  induction h with
  | empty => exact wellFormed_empty
  | read h =>
    -- The reader checks the references, and the count and the slots are as it fills them.
    obtain ⟨_, ⟨⟨constants, _, hlaid, hcount, -, -⟩, hres⟩, -⟩ := reads_read.sound h
    exact ⟨⟨constants, hlaid⟩, Nat.le_of_lt_succ hcount, hres⟩
  | push _ h ih => exact ih.push h
  | replace _ h ih => exact ih.replace h

end ConstantPool

end ClassFormat
