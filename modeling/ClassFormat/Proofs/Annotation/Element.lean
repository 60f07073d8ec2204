import Mathlib
import ClassFormat.Annotation.Codec
import ClassFormat.Proofs.ConstantPool.Reference

/-!
# Annotations and their values

An annotation is read back from what is written for it exactly if its references resolve, at
any depth, and its values are nested within the limit.

* `ElementValue.references`, `Annotation.references`: every reference of an annotation;
* `ElementValue.height`, `Annotation.height`: how many levels values are nested;
* `ElementValue.inverts_readWithin`: a reader for a number of levels, by induction on it;
* `Annotation.inverts_read`, `Annotation.inverts_readList`, `Annotation.inverts_readParameters`.
-/

namespace ClassFormat

/-! ### What an annotation holds -/

mutual

/-- The references of a value. -/
def ElementValue.references : ElementValue → List Reference
  | .constant tag index => [.required index [tag.kind]]
  | .enum typeIndex nameIndex => [.required typeIndex [.utf8], .required nameIndex [.utf8]]
  | .nested a => Annotation.references a
  | .array values => ElementValue.allReferences values

/-- The references of values. -/
def ElementValue.allReferences : List ElementValue → List Reference
  | [] => []
  | value :: rest => ElementValue.references value ++ ElementValue.allReferences rest

/-- The references of elements. -/
def ElementPair.allReferences : List ElementPair → List Reference
  | [] => []
  | ⟨nameIndex, value⟩ :: rest =>
    .required nameIndex [.utf8] :: ElementValue.references value ++ ElementPair.allReferences rest

/-- The references of an annotation. -/
def Annotation.references : Annotation → List Reference
  | ⟨typeIndex, pairs⟩ => .required typeIndex [.utf8] :: ElementPair.allReferences pairs

end

mutual

/-- How many levels a value is nested. -/
def ElementValue.height : ElementValue → Nat
  | .constant .. | .enum .. => 1
  | .nested a => Annotation.height a + 1
  | .array values => ElementValue.maxHeight values + 1

/-- How many levels the most nested of some values is. -/
def ElementValue.maxHeight : List ElementValue → Nat
  | [] => 0
  | value :: rest => max (ElementValue.height value) (ElementValue.maxHeight rest)

/-- How many levels the value of an element is nested at most. -/
def ElementPair.maxHeight : List ElementPair → Nat
  | [] => 0
  | ⟨_, value⟩ :: rest => max (ElementValue.height value) (ElementPair.maxHeight rest)

/-- How many levels the values of an annotation are nested at most. -/
def Annotation.height : Annotation → Nat
  | ⟨_, pairs⟩ => ElementPair.maxHeight pairs

end

/-- Every reference resolves, and values are nested at most `levels` deep. -/
@[mk_iff]
structure ElementValue.Admissible (pool : ConstantPool) (levels : Nat) (value : ElementValue) :
    Prop where
  references : ∀ r ∈ value.references, r.Resolves pool
  height_le : value.height ≤ levels

/-- Every reference resolves, and values are nested at most `levels` deep. -/
@[mk_iff]
structure Annotation.Admissible (pool : ConstantPool) (levels : Nat) (a : Annotation) : Prop where
  references : ∀ r ∈ a.references, r.Resolves pool
  height_le : a.height ≤ levels

variable {pool : ConstantPool} {levels : Nat} {bytes : Bytes}

namespace ElementValue

theorem height_pos (value : ElementValue) : 0 < value.height := by
  cases value <;> simp only [height] <;> omega

/-- A constant value refers to a constant of the kind that its tag asks for. -/
theorem admissible_constant {tag : ElementTag} {index : UInt16} :
    (constant tag index).Admissible pool (levels + 1) ↔ pool.Refers index [tag.kind] := by
  constructor
  · intro h
    simpa [references] using h.references
  · intro h
    exact ⟨by simpa [references] using h, Nat.le_add_left 1 levels⟩

/-- An enum value refers to the texts of its type and its name. -/
theorem admissible_enum {typeIndex nameIndex : UInt16} :
    (enum typeIndex nameIndex).Admissible pool (levels + 1) ↔
      pool.Refers typeIndex [.utf8] ∧ pool.Refers nameIndex [.utf8] := by
  constructor
  · intro h
    simpa [references] using h.references
  · intro h
    exact ⟨by simpa [references] using h, Nat.le_add_left 1 levels⟩

/-- A nested annotation takes up one level. -/
theorem admissible_nested {a : Annotation} :
    (nested a).Admissible pool (levels + 1) ↔ a.Admissible pool levels :=
  ⟨fun h => ⟨h.references, Nat.le_of_succ_le_succ h.height_le⟩,
    fun h => ⟨h.references, Nat.succ_le_succ h.height_le⟩⟩

/-- An array takes up one level. -/
theorem admissible_array {values : List ElementValue} :
    (array values).Admissible pool (levels + 1) ↔ ∀ v ∈ values, v.Admissible pool levels := by
  have h : (array values).Admissible pool (levels + 1) ↔
      (∀ r ∈ allReferences values, r.Resolves pool) ∧ maxHeight values ≤ levels :=
    ⟨fun h => ⟨h.references, Nat.le_of_succ_le_succ h.height_le⟩,
      fun h => ⟨h.1, Nat.succ_le_succ h.2⟩⟩
  rw [h]
  clear h
  induction values with
  | nil => simp [allReferences, maxHeight]
  | cons v rest ih =>
    simp only [allReferences, maxHeight, List.forall_mem_append, Nat.max_le,
      List.forall_mem_cons, ← ih]
    constructor
    · rintro ⟨⟨hv, hr⟩, hv', hr'⟩
      exact ⟨⟨hv, hv'⟩, hr, hr'⟩
    · rintro ⟨⟨hv, hv'⟩, hr, hr'⟩
      exact ⟨⟨hv, hr⟩, hv', hr'⟩

end ElementValue

/-- An annotation takes up no level of its own, as it is its values that are counted. -/
theorem Annotation.admissible_mk {typeIndex : UInt16} {pairs : List ElementPair} :
    Annotation.Admissible pool levels ⟨typeIndex, pairs⟩ ↔ pool.Refers typeIndex [.utf8] ∧
      ∀ p ∈ pairs, pool.Refers p.nameIndex [.utf8] ∧ p.value.Admissible pool levels := by
  have h : Annotation.Admissible pool levels ⟨typeIndex, pairs⟩ ↔ pool.Refers typeIndex [.utf8] ∧
      (∀ r ∈ ElementPair.allReferences pairs, r.Resolves pool) ∧
          ElementPair.maxHeight pairs ≤ levels := by
    constructor
    · intro h
      have href := h.references
      simp only [List.forall_mem_cons, Annotation.references, Reference.resolves_required] at href
      exact ⟨href.1, href.2, h.height_le⟩
    · rintro ⟨htype, hpairs, hheight⟩
      refine ⟨?_, hheight⟩
      simp only [List.forall_mem_cons, Annotation.references, Reference.resolves_required]
      exact ⟨htype, hpairs⟩
  rw [h]
  clear h
  refine and_congr_right fun _ => ?_
  induction pairs with
  | nil => simp [ElementPair.allReferences, ElementPair.maxHeight]
  | cons p rest ih =>
    obtain ⟨nameIndex, value⟩ := p
    simp only [ElementPair.allReferences, ElementPair.maxHeight, List.cons_append, Nat.max_le,
      List.forall_mem_cons, List.forall_mem_append, Reference.resolves_required, ← ih]
    constructor
    · rintro ⟨⟨hn, hv, hr⟩, hv', hr'⟩
      exact ⟨⟨hn, hv, hv'⟩, hr, hr'⟩
    · rintro ⟨⟨hn, hv, hv'⟩, hr, hr'⟩
      exact ⟨⟨hn, hv, hr⟩, hv', hr'⟩

/-! ### What is written -/

/-- The bytes of an element. -/
def ElementPair.write (p : ElementPair) : Written :=
  return Writer.u2 p.nameIndex ++ (← p.value.write)

/-- A nested annotation is written as a code and the annotation. -/
theorem ElementValue.write_nested {a : Annotation} : (ElementValue.nested a).write = .ok bytes ↔
    ∃ y, a.write = .ok y ∧ bytes = Writer.u1 ElementTag.annotationCode ++ y := by
  simp [ElementValue.write, eq_comm (a := bytes)]

/-- An array is written as a code and a table of its values. -/
theorem ElementValue.write_array {values : List ElementValue} :
    (ElementValue.array values).write = .ok bytes ↔
      ∃ y, Writer.table ElementValue.write values = .ok y ∧
        bytes = Writer.u1 ElementTag.arrayCode ++ y := by
  have h : ElementValue.writeAll [] values = Writer.rows ElementValue.write values :=
    Writer.gathered_eq_rows (fun done => by rw [writeAll]) fun done v rest => by rw [writeAll]
  simp only [ElementValue.write, h, Writer.table, bind_eq_ok, pure_eq_ok]
  constructor
  · rintro ⟨count, hcount, y, hy, rfl⟩
    exact ⟨_, ⟨count, hcount, y, hy, rfl⟩, List.append_assoc ..⟩
  · rintro ⟨_, ⟨count, hcount, y, hy, rfl⟩, rfl⟩
    exact ⟨count, hcount, y, hy, List.append_assoc ..⟩

/-- An annotation is written as its type and a table of its pairs. -/
theorem Annotation.write_eq_ok {typeIndex : UInt16} {pairs : List ElementPair} :
    Annotation.write ⟨typeIndex, pairs⟩ = .ok bytes ↔
      ∃ y, Writer.table ElementPair.write pairs = .ok y ∧ bytes = Writer.u2 typeIndex ++ y := by
  have h : ElementPair.writeAll [] pairs = Writer.rows ElementPair.write pairs :=
    Writer.gathered_eq_rows (fun done => by rw [ElementPair.writeAll]) fun done ⟨n, v⟩ rest => by
      rw [ElementPair.writeAll, ElementPair.write]
      simp only [bind_assoc, pure_bind]
  simp only [h, Annotation.write, Writer.table, bind_eq_ok, pure_eq_ok]
  constructor
  · rintro ⟨count, hcount, y, hy, rfl⟩
    exact ⟨_, ⟨count, hcount, y, hy, rfl⟩, List.append_assoc ..⟩
  · rintro ⟨_, ⟨count, hcount, y, hy, rfl⟩, rfl⟩
    exact ⟨count, hcount, y, hy, List.append_assoc ..⟩

/-! ### Reading back -/

open Reader

/-- The tag that a code stands for is the one that has the code. -/
theorem ElementTag.ofCode?_eq_some {code : UInt8} {tag : ElementTag} :
    ElementTag.ofCode? code = some tag ↔ tag.code = code := by
  constructor
  · intro h
    simpa using List.find?_some h
  · rintro rfl
    exact ofCode?_code tag

/-- Reads an element, its value with `readValue`. -/
def ElementPair.readWith (pool : ConstantPool) (readValue : Reader ElementValue) :
    Reader ElementPair := do
  let nameIndex ← Reader.u2
  let _ ← pool.require nameIndex [.utf8]
  return ⟨nameIndex, ← readValue⟩

/-- An element is read as its value is. -/
theorem ElementPair.inverts_readWith {readValue : Reader ElementValue}
    (h : readValue.Inverts ElementValue.write fun v => v.Admissible pool levels) :
    (readWith pool readValue).Inverts write
      fun p => pool.Refers p.nameIndex [.utf8] ∧ p.value.Admissible pool levels := by
  refine Reads.congr (reads_u2.bind fun n => Reads.guard (pool.require n [.utf8]) fun _ =>
    h.bind fun v => Reads.pure _) fun p y => ⟨?_, ?_⟩
  · rintro ⟨n, _, rfl, _, ⟨hn, v, y, ⟨hy, hv⟩, _, ⟨rfl, rfl⟩, rfl⟩, rfl⟩
    exact ⟨by simp [write, hy], by simpa using hn, hv⟩
  · obtain ⟨n, v⟩ := p
    rintro ⟨hy, hn, hv⟩
    simp only [write, bind_eq_ok, pure_eq_ok] at hy
    obtain ⟨y, hy, rfl⟩ := hy
    exact ⟨n, _, rfl, y, ⟨by simpa using hn, v, y, ⟨hy, hv⟩, [], ⟨rfl, rfl⟩, by simp⟩, rfl⟩

/-- An annotation is read as its values are. -/
theorem Annotation.inverts_readWith {readValue : Reader ElementValue}
    (h : readValue.Inverts ElementValue.write fun v => v.Admissible pool levels) :
    (readWith pool readValue).Inverts Annotation.write fun a => a.Admissible pool levels := by
  refine Reads.congr (reads_u2.bind fun typeIndex =>
    Reads.guard (Failure.inside .readingAnnotationType (pool.text typeIndex)) fun type =>
      (Inverts.table fun _ => ElementPair.inverts_readWith h).within.bind fun pairs =>
      Reads.pure _) fun a bytes => ⟨?_, ?_⟩
  · rintro ⟨typeIndex, _, rfl, _, ⟨htype, pairs, y, ⟨hy, hpairs⟩, _, ⟨rfl, rfl⟩, rfl⟩, rfl⟩
    exact ⟨write_eq_ok.2 ⟨y, hy, by simp⟩, admissible_mk.2 ⟨by simpa using htype, hpairs⟩⟩
  · obtain ⟨typeIndex, pairs⟩ := a
    rintro ⟨hwrite, ha⟩
    obtain ⟨y, hy, rfl⟩ := write_eq_ok.1 hwrite
    obtain ⟨htype, hpairs⟩ := admissible_mk.1 ha
    exact ⟨typeIndex, _, rfl, y, ⟨by simpa using htype, pairs, y, ⟨hy, hpairs⟩, [], ⟨rfl, rfl⟩,
      by simp⟩, rfl⟩

namespace ElementValue

/-- A constant value is the index of a constant of the kind that its tag asks for. -/
theorem reads_readConstant (pool : ConstantPool) (code : UInt8) (offset : Nat)
    (kind : Constant.Kind) : (readConstant pool code offset kind).Reads fun index bytes =>
      bytes = Writer.u2 index ∧ pool.Refers index [kind] :=
  (reads_u2.bind fun index => Reads.bind (Reads.check _) fun _ => Reads.pure index).congr
    fun index bytes => by simp [and_comm]

/-! The byte that announces a value tells the sorts of values apart. -/

/-- The code of a tag is that of the constant values with this tag only. -/
theorem code_eq_tag {v : ElementValue} {tag : ElementTag} :
    v.code = tag.code ↔ ∃ index, v = constant tag index := by
  cases v with
  | constant tag' index =>
    simp [code, ← ElementTag.ofCode?_eq_some, ElementTag.ofCode?_code, eq_comm]
  | _ => cases tag <;> simp +decide [code]

/-- The code of enum values is that of no other ones. -/
theorem code_eq_enumCode {v : ElementValue} :
    v.code = ElementTag.enumCode ↔ ∃ typeIndex nameIndex, v = enum typeIndex nameIndex := by
  cases v with
  | constant tag index => cases tag <;> simp +decide [code]
  | _ => simp +decide [code]

/-- The code of nested annotations is that of no other values. -/
theorem code_eq_annotationCode {v : ElementValue} :
    v.code = ElementTag.annotationCode ↔ ∃ a, v = nested a := by
  cases v with
  | constant tag index => cases tag <;> simp +decide [code]
  | _ => simp +decide [code]

/-- The code of arrays is that of no other values. -/
theorem code_eq_arrayCode {v : ElementValue} :
    v.code = ElementTag.arrayCode ↔ ∃ values, v = array values := by
  cases v with
  | constant tag index => cases tag <;> simp +decide [code]
  | _ => simp +decide [code]

/-- What follows the byte that announces a value. -/
theorem write_cons {v : ElementValue} {code : UInt8} {y : Bytes} :
    v.write = .ok (Writer.u1 code ++ y) ↔ v.code = code ∧
      match v with
      | constant _ index => y = Writer.u2 index
      | enum typeIndex nameIndex => y = Writer.u2 typeIndex ++ Writer.u2 nameIndex
      | nested a => a.write = .ok y
      | array values => Writer.table write values = .ok y := by
  cases v with
  | constant tag index => simp [write, Writer.u1, ElementValue.code, eq_comm]
  | enum typeIndex nameIndex => simp [write, Writer.u1, ElementValue.code, eq_comm]
  | nested a => simp [write_nested, Writer.u1, ElementValue.code, eq_comm (a := code), and_comm]
  | array values => simp [write_array, Writer.u1, ElementValue.code, eq_comm (a := code), and_comm]

/-- Every value is written with its code in front. -/
theorem exists_cons_of_write {v : ElementValue} (h : v.write = .ok bytes) :
    ∃ y, bytes = Writer.u1 v.code ++ y := by
  cases v with
  | constant tag index => cases h; exact ⟨_, rfl⟩
  | enum typeIndex nameIndex => cases h; exact ⟨_, rfl⟩
  | nested a =>
    obtain ⟨y, -, rfl⟩ := write_nested.1 h
    exact ⟨y, rfl⟩
  | array values =>
    obtain ⟨y, -, rfl⟩ := write_array.1 h
    exact ⟨y, rfl⟩

/-- Every value takes at least one byte. -/
theorem ne_nil_of_write {v : ElementValue} (h : v.write = .ok bytes) : bytes ≠ [] := by
  obtain ⟨y, rfl⟩ := exists_cons_of_write h
  exact List.cons_ne_nil _ _

/-- A value nested at most `levels` deep is read back, by induction on `levels`: each array and
    each annotation takes one level. -/
theorem inverts_readWithin (pool : ConstantPool) (levels : Nat) :
    (readWithin pool levels).Inverts write fun v => v.Admissible pool levels := by
  induction levels with
  | zero =>
    refine (Reads.raise _).congr fun v bytes => ⟨False.elim, fun ⟨_, hv⟩ => ?_⟩
    exact absurd hv.height_le (Nat.not_le.2 v.height_pos)
  | succ levels ih =>
    refine Reads.offset fun offset => Reads.firstByte (fun v h => ne_nil_of_write h.1 rfl)
      fun code => ?_
    simp only [write_cons]
    split
    next tag htag =>
      obtain rfl := ElementTag.ofCode?_eq_some.1 htag
      refine (reads_readConstant pool _ offset _).map.congr fun v y => ⟨?_, ?_⟩
      · rintro ⟨index, rfl, rfl, hindex⟩
        exact ⟨⟨rfl, rfl⟩, admissible_constant.2 hindex⟩
      · rintro ⟨⟨hcode, hy⟩, hv⟩
        obtain ⟨index, rfl⟩ := code_eq_tag.1 hcode
        exact ⟨index, rfl, hy, admissible_constant.1 hv⟩
    next htag =>
      split_ifs with he ha hr
      · subst he
        refine Reads.congr ((reads_readConstant pool _ offset _).bind fun typeIndex =>
          (reads_readConstant pool _ offset _).bind fun nameIndex =>
          Reads.pure _) fun v y => ⟨?_, ?_⟩
        · rintro ⟨typeIndex, _, ⟨rfl, ht⟩, _, ⟨nameIndex, _, ⟨rfl, hn⟩, _, ⟨rfl, rfl⟩, rfl⟩, rfl⟩
          exact ⟨⟨rfl, by simp⟩, admissible_enum.2 ⟨ht, hn⟩⟩
        · rintro ⟨⟨hcode, hy⟩, hv⟩
          obtain ⟨typeIndex, nameIndex, rfl⟩ := code_eq_enumCode.1 hcode
          obtain ⟨ht, hn⟩ := admissible_enum.1 hv
          exact ⟨_, _, ⟨rfl, ht⟩, _, ⟨_, _, ⟨rfl, hn⟩, [], ⟨rfl, rfl⟩, rfl⟩, by simpa using hy⟩
      · subst ha
        have ha := Annotation.inverts_readWith ih
        refine Reads.congr ha.map fun v y => ⟨?_, ?_⟩
        · rintro ⟨a, rfl, hy, ha⟩
          exact ⟨⟨rfl, hy⟩, admissible_nested.2 ha⟩
        · rintro ⟨⟨hcode, hy⟩, hv⟩
          obtain ⟨a, rfl⟩ := code_eq_annotationCode.1 hcode
          exact ⟨a, rfl, hy, admissible_nested.1 hv⟩
      · subst hr
        refine Reads.congr (Inverts.table fun _ => ih).map fun v y => ⟨?_, ?_⟩
        · rintro ⟨values, rfl, hy, hvalues⟩
          exact ⟨⟨rfl, hy⟩, admissible_array.2 hvalues⟩
        · rintro ⟨⟨hcode, hy⟩, hv⟩
          obtain ⟨values, rfl⟩ := code_eq_arrayCode.1 hcode
          exact ⟨values, rfl, hy, admissible_array.1 hv⟩
      · -- No value is announced by any other byte.
        refine (Reads.raise _).congr fun v y => ⟨False.elim, ?_⟩
        rintro ⟨⟨rfl, -⟩, -⟩
        cases v with
        | constant tag index => cases (ElementTag.ofCode?_code tag).symm.trans htag
        | enum typeIndex nameIndex => exact he rfl
        | nested a => exact ha rfl
        | array values => exact hr rfl

/-- A value is read as it is written, if it is nested no deeper than it may be. -/
theorem inverts_read (pool : ConstantPool) :
    (read pool).Inverts write fun v => v.Admissible pool maxDepth :=
  inverts_readWithin pool maxDepth

end ElementValue

namespace Annotation

variable (pool : ConstantPool)

/-- An annotation is read as it is written, if its values are nested no deeper than they may be. -/
theorem inverts_read : (read pool).Inverts write fun a => a.Admissible pool ElementValue.maxDepth :=
  inverts_readWith (ElementValue.inverts_read pool)

/-- A list of annotations is read as it is written. -/
theorem inverts_readList : (readList pool).Inverts writeList fun annotations =>
    ∀ a ∈ annotations, a.Admissible pool ElementValue.maxDepth :=
  Inverts.table fun _ => (inverts_read pool).within

/-- The annotations of parameters are read as they are written, a list for each parameter. -/
theorem inverts_readParameters : (readParameters pool).Inverts writeParameters fun parameters =>
    ∀ annotations ∈ parameters, ∀ a ∈ annotations, a.Admissible pool ElementValue.maxDepth :=
  Inverts.shortTable fun _ => (inverts_readList pool).within

end Annotation

end ClassFormat
