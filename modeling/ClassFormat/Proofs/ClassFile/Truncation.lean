import Mathlib
import ClassFormat.Proofs.Attribute.Truncation
import ClassFormat.Proofs.ClassFile.Codec

/-!
# Class files that are cut

No class file is the beginning of another one: cut anywhere, it is refused as truncated, at the end
of what is left of it, and anything behind it is refused as trailing data. A cut within the body of
an attribute is no exception, as the body is taken as a whole before it is decoded.

* `ConstantPool.starves_read`, `Member.starves_read`: what a class file consists of;
* `ClassFile.starves_read`, `ClassFile.overflows_read`: class files;
* `ClassFile.ofBytes_cut`: class files that are too short or too long.
-/

namespace ClassFormat

open Reader

/-! ### The pool -/

/-- A constant that is cut short is truncated. -/
theorem Constant.starves_read (index : UInt16) : (read index).Starves := by
  refine .bind reads_u1 starves_u1 fun tag => ?_
  rcases Kind.ofTag? tag with _ | kind
  · exact (Still.raise _).starves
  · cases kind with
    | utf8 =>
      refine .bind reads_u2 starves_u2 fun length => (starves_bytes length.toNat).bind_still
        fun content => ?_
      cases ModifiedUtf8.decode content with
      | ok t => exact .pure _
      | error defect => exact .raise _
    | integer => exact starves_i4.bind_still fun _ => .pure _
    | float => exact starves_u4.bind_still fun _ => .pure _
    | long => exact starves_i8.bind_still fun _ => .pure _
    | double => exact starves_u8.bind_still fun _ => .pure _
    | classref | string | methodType | module | package =>
      exact starves_u2.bind_still fun _ => .pure _
    | methodHandle =>
      exact .bind reads_u1 starves_u1 fun _ => starves_u2.bind_still fun _ => .pure _
    | fieldref | methodref | interfaceMethodref | nameAndType | dynamic | invokeDynamic =>
      exact .bind reads_u2 starves_u2 fun _ => starves_u2.bind_still fun _ => .pure _

namespace ConstantPool

/-- A pool starves in the constant that is cut short. -/
theorem starves_readSlots (left : Nat) (done : Array (Option Constant)) :
    (readSlots done left).Starves := by
  -- A wide constant takes up two of the slots that are left.
  induction left using Nat.strongRecOn generalizing done with
  | ind left ih =>
    rcases left with _ | left
    · exact (Still.pure _).starves
    · rw [readSlots]
      refine .offset fun offset => .bind (Constant.reads_read _).within
        (Constant.starves_read _).within fun constant => ?_
      split
      · rcases left with _ | left
        · exact (Still.raise _).starves
        · exact ih left (by omega) _
      · exact ih left (by omega) _

/-- A pool starves before it is validated. -/
theorem starves_read : read.Starves := by
  refine .bind reads_u2 starves_u2 fun count => ?_
  split
  · exact (Still.raise _).starves
  · exact (starves_readSlots _ _).bind_still fun slots => (Still.check _).bind fun _ => .pure _

/-- A table of indices starves in the index that is cut short. -/
theorem starves_indices (pool : ConstantPool) (kind : Constant.Kind) :
    (pool.readIndices kind).Starves :=
  .table (fun _ => pool.reads_index [kind]) fun _ =>
    starves_u2.bind_still fun index => (Still.check (pool.require index [kind])).bind fun _ =>
    .pure _

end ConstantPool

/-! ### Members -/

/-- A field or a method starves before its attributes or in them. -/
theorem Member.starves_read (pool : ConstantPool) (options : ReadOptions) {location : Location}
    (interfaces : Nat) (hlocation : location ≠ .code) :
    (read ⟨pool, options, location, interfaces, none⟩).Starves := by
  refine .bind reads_u2 starves_u2 fun accessFlags => .bind reads_u2 starves_u2 fun nameIndex =>
    .bind reads_u2 starves_u2 fun descriptorIndex => .bind (Reads.check _) (Still.check _).starves
      fun name => .bind (Reads.check _) (Still.check _).starves fun descriptor =>
        .bind (Reads.log _) (Still.log _).starves fun _ => .bind_still (.within ?_)
        fun attributes => .pure _
  refine (Attribute.starves_readList pool options ⟨location, interfaces, 0, none⟩
    hlocation).bind_still fun attributes => ?_
  split
  · exact (Still.check _).bind fun _ => .pure _
  · exact .pure _

/-! ### Class files -/

namespace ClassFile

variable {c : ClassFile} {options : ReadOptions} {bytes : Bytes}

/-- The members and attributes of a class starve one after another. -/
theorem starves_parts (pool : ConstantPool) (options : ReadOptions) (interfaces : Nat) :
    (readParts pool options interfaces).Starves := by
  have hmembers {location : Location} (hlocation : location ≠ .code) :
      (table fun _ => Member.read ⟨pool, options, location, interfaces, none⟩).Starves :=
    .table (fun _ => Member.inverts_read hlocation) fun _ => Member.starves_read _ _ _ hlocation
  refine .bind (Inverts.table fun _ => Member.inverts_read (by decide)) (hmembers (by decide))
    fun fields => .bind (Inverts.table fun _ => Member.inverts_read (by decide))
    (hmembers (by decide)) fun methods => ?_
  exact (Attribute.starves_readList pool options ⟨.classFile, interfaces, 0, none⟩ nofun).bind_still
    fun _ => .pure _

/-- The checks at the end take nothing. -/
theorem still_finish (c : ClassFile) : c.finish.Still where
  past {cursor d cursor'} h := by
    rw [finish, get_bind] at h
    split at h
    · cases h
    · exact ((Still.check c.checkBootstrapIndices).bind fun _ => .pure c).past h

/-- What follows the pool starves, up to the checks at the end. -/
theorem starves_readBody (options : ReadOptions) (minor major : UInt16) (pool : ConstantPool) :
    (readBody options minor major pool).Starves :=
  .bind reads_u2 starves_u2 fun _ => .bind reads_u2 starves_u2 fun _ =>
    .bind (Reads.check _) (Still.check _).starves fun _ => .bind reads_u2 starves_u2 fun _ =>
      .bind (Reads.check _) (Still.check _).starves fun _ =>
        .bind (pool.inverts_indices .classref).within (pool.starves_indices .classref).within
          fun interfaces => (starves_parts pool options interfaces.length).within.bind_still
          fun ⟨_, _, _⟩ => still_finish _

/-- A class file that is cut is refused for want of what was cut off. -/
theorem starves_read (options : ReadOptions) : (read options).Starves := by
  rw [read_eq]
  exact .bind reads_u4 starves_u4 fun _ => .refuse (b := ()) <|
    .bind reads_u2 starves_u2 fun minor =>
    .bind reads_u2 starves_u2 fun major => .bind ConstantPool.reads_read.within
      ConstantPool.starves_read.within
      fun pool => .bind (Reads.log _) (Still.log _).starves fun _ =>
      starves_readBody options minor major pool

/-- Bytes that are left over are found at the end. -/
theorem overflows_finish (c : ClassFile) : c.finish.Overflows where
  fails {cursor d cursor'} h {e extra} hoffset hextra he := by
    have hempty : cursor.rest = [] := by
      rw [← c.exhausts_finish h, (c.still_finish.past h).rest, List.nil_append]
    rw [hempty, List.nil_append] at he
    obtain ⟨b, rest, rfl⟩ := List.exists_cons_of_ne_nil hextra
    refine ⟨.ofFault (.malformed (.trailingData (b :: rest).length e.offset)), e, ?_, ?_⟩
    · rw [finish, get_bind, he]
      rfl
    · rw [hoffset, hempty]
      rfl

/-- What follows the pool is read as before, and the bytes that are left over are found at the end.
    -/
theorem overflows_readBody (options : ReadOptions) (minor major : UInt16) (pool : ConstantPool) :
    (readBody options minor major pool).Overflows :=
  .bind reads_u2 fun _ => .bind reads_u2 fun _ => .bind (Reads.check _) fun _ =>
    .bind reads_u2 fun _ => .bind (Reads.check _) fun _ =>
    .bind (pool.inverts_indices .classref).within fun interfaces =>
      .bind (reads_parts pool options interfaces.length).within fun ⟨_, _, _⟩ => overflows_finish _

/-- Data behind a class file is refused. -/
theorem overflows_read (options : ReadOptions) : (read options).Overflows := by
  rw [read_eq]
  exact .bind reads_u4 fun _ => .refuse (b := ()) <| .bind reads_u2 fun minor =>
    .bind reads_u2 fun major =>
    .bind ConstantPool.reads_read.within fun pool => .bind (Reads.log _) fun _ =>
      overflows_readBody options minor major pool

/-- A class file that is cut is refused as truncated, at the end of what is left of it, and one with
    something behind it is refused for that. So none is the beginning of another one. -/
theorem ofBytes_cut (h : ofBytes options bytes = .ok c) :
    (∀ n < bytes.length, ∃ f offset needed available, ofBytes options (bytes.take n) = .error f ∧
      f.fault? = some (.truncated offset needed available) ∧ offset + available = n ∧
      available < needed) ∧
    ∀ extra ≠ [], ∃ f, ofBytes options (bytes ++ extra) = .error f ∧
      f.fault? = some (.malformed (.trailingData extra.length bytes.length)) := by
  obtain ⟨cursor, hread⟩ := ofBytes_ok_iff.1 h
  constructor
  · intro n hn
    obtain ⟨x, past, hcut⟩ := (starves_read options).cut hread
    -- Nothing is left behind a class file, so it takes all of the bytes.
    obtain rfl : bytes = x := by
      rw [← List.append_nil x, ← exhausts_read options hread]
      exact past.rest
    obtain ⟨f, cursor', offset, needed, available, hfail, hfault, hend, hlt, -⟩ :=
      hcut (d := .start (bytes.take n)) rfl hn rfl
    refine ⟨f, offset, needed, available, ofBytes_error_iff.2 ⟨cursor', hfail⟩, hfault, ?_, hlt⟩
    rw [hend]
    simp [Cursor.start, hn.le]
  · intro extra hextra
    obtain ⟨f, cursor', hfail, hfault⟩ :=
      (overflows_read options).fails hread (d := .start (bytes ++ extra)) rfl hextra rfl
    refine ⟨f, ofBytes_error_iff.2 ⟨cursor', hfail⟩, ?_⟩
    rw [hfault]
    simp [Cursor.start]

/-- The class is cut to 70 bytes, and then given a byte too many. -/
theorem ofBytes_cut_thrower : ofBytes {} throwerBytes = .ok thrower ∧
    (∃ f offset needed available, ofBytes {} (throwerBytes.take 70) = .error f ∧
      f.fault? = some (.truncated offset needed available) ∧ offset + available = 70 ∧
      available < needed) ∧
    ∃ f, ofBytes {} (throwerBytes ++ [0]) = .error f ∧
      f.fault? = some (.malformed (.trailingData 1 throwerBytes.length)) :=
  ⟨ofBytes_thrower, (ofBytes_cut ofBytes_thrower).1 70 (by decide),
    (ofBytes_cut ofBytes_thrower).2 [0] nofun⟩

end ClassFile

end ClassFormat
