import Mathlib
import ClassFormat.Proofs.Annotation.Element
import ClassFormat.Proofs.Failing

/-!
# How deep values may be nested

A value can be written however deep it is nested, if only its lists are short enough to be counted.
It is read back up to a certain height, and refused above. An array takes one level for its items,
an annotation one for the values of its pairs, so the levels that are left where the reader runs out
of them are the height that is left of the value.

* `ElementValue.counts`: how many items the lists of a value have;
* `ElementValue.exists_write_iff`: which values can be written;
* `ElementValue.fails_readWithin`: a reader for a number of levels, by induction on it;
* `Annotation.fails_readWith`: an annotation fails at its first value that is nested too deep;
* `ElementValue.read_by_height`: what is read for a value that was written, alone or in an
  annotation.
-/

namespace ClassFormat

/-! ### What can be written -/

mutual

/-- How many items the lists of a value have. -/
def ElementValue.counts : ElementValue → List Nat
  | .constant .. | .enum .. => []
  | .nested a => Annotation.counts a
  | .array values => values.length :: ElementValue.allCounts values

/-- How many items the lists of values have. -/
def ElementValue.allCounts : List ElementValue → List Nat
  | [] => []
  | value :: rest => ElementValue.counts value ++ ElementValue.allCounts rest

/-- How many items the lists of the values of elements have. -/
def ElementPair.allCounts : List ElementPair → List Nat
  | [] => []
  | ⟨_, value⟩ :: rest => ElementValue.counts value ++ ElementPair.allCounts rest

/-- How many items the lists of an annotation have. -/
def Annotation.counts : Annotation → List Nat
  | ⟨_, pairs⟩ => pairs.length :: ElementPair.allCounts pairs

end

mutual

/-- A value can be written exactly if its lists are short enough to be counted. -/
theorem ElementValue.exists_write_iff : (value : ElementValue) →
    ((∃ bytes, value.write = .ok bytes) ↔ ∀ n ∈ value.counts, n ≤ 65535)
  | .constant .. | .enum .. => by simp [ElementValue.write, ElementValue.counts]
  | .nested a => by
    rw [ElementValue.counts, ← Annotation.exists_write_iff a]
    simp only [ElementValue.write_nested]
    rw [exists_comm]
    simp
  | .array values => by
    rw [ElementValue.counts, List.forall_mem_cons, ← ElementValue.forall_exists_write_iff values,
      ← Writer.exists_table_iff]
    simp only [ElementValue.write_array]
    rw [exists_comm]
    simp

/-- Values can be written one by one exactly if all lists in any of them can be counted. -/
theorem ElementValue.forall_exists_write_iff : (values : List ElementValue) →
    ((∀ v ∈ values, ∃ bytes, v.write = .ok bytes) ↔ ∀ n ∈ ElementValue.allCounts values, n ≤ 65535)
  | [] => by simp [ElementValue.allCounts]
  | value :: rest => by
    rw [ElementValue.allCounts, List.forall_mem_cons, List.forall_mem_append,
      ElementValue.exists_write_iff value, ElementValue.forall_exists_write_iff rest]

/-- Pairs can be written one by one exactly if all lists in any of their values can be counted. -/
theorem ElementPair.forall_exists_write_iff : (pairs : List ElementPair) →
    ((∀ p ∈ pairs, ∃ bytes, p.write = .ok bytes) ↔ ∀ n ∈ ElementPair.allCounts pairs, n ≤ 65535)
  | [] => by simp [ElementPair.allCounts]
  | ⟨nameIndex, value⟩ :: rest => by
    rw [ElementPair.allCounts, List.forall_mem_cons, List.forall_mem_append,
      ← ElementValue.exists_write_iff value, ElementPair.forall_exists_write_iff rest]
    simp [ElementPair.write]

/-- An annotation can be written exactly if its lists are short enough to be counted. -/
theorem Annotation.exists_write_iff : (a : Annotation) →
    ((∃ bytes, a.write = .ok bytes) ↔ ∀ n ∈ a.counts, n ≤ 65535)
  | ⟨typeIndex, pairs⟩ => by
    unfold Annotation.counts
    rw [List.forall_mem_cons, ← ElementPair.forall_exists_write_iff pairs,
      ← Writer.exists_table_iff, exists_congr fun _ => Annotation.write_eq_ok, exists_comm]
    simp

end

/-! ### Values that are nested too deep -/

open Reader

variable {pool : ConstantPool} {levels : Nat} {bytes : Bytes}

/-- The fault of values that are nested too deep. -/
abbrev Fault.IsTooDeep (fault : Fault) : Prop := fault = .malformed .elementDepth

/-- An element fails where its value does. -/
theorem ElementPair.fails_readWith {readValue : Reader ElementValue} {p : ElementPair} {start : Nat}
    {x : Bytes} {P : Fault → Prop} (hname : pool.Refers p.nameIndex [.utf8])
    (hvalue : readValue.Fails (start + 2) x P) :
    (readWith pool readValue).Fails start (Writer.u2 p.nameIndex ++ x) P := by
  obtain ⟨constant, hconstant⟩ := ConstantPool.exists_require_eq_ok.2 hname
  refine .next reads_u2 rfl (.skip (Reads.check _) ⟨hconstant, rfl⟩ ?_)
  rw [Writer.length_u2]
  exact hvalue.bind

/-- The values of a reader are nested at most `levels` deep: deeper ones are refused as such. -/
def ElementValue.Bounds (pool : ConstantPool) (levels : Nat) (readValue : Reader ElementValue) :
    Prop :=
  ∀ v : ElementValue, (∀ r ∈ v.references, r.Resolves pool) → levels < v.height → ∀ x,
    v.write = .ok x → ∀ start further, readValue.Fails start (x ++ further) Fault.IsTooDeep

/-- An element of an annotation with references that resolve is read if its value is not nested too
    deep. -/
theorem Annotation.admissible_of_mem {a : Annotation} {p : ElementPair}
    (hrefs : ∀ r ∈ a.references, r.Resolves pool) (hp : p ∈ a.pairs)
    (hheight : p.value.height ≤ levels) :
    pool.Refers p.nameIndex [.utf8] ∧ p.value.Admissible pool levels := by
  obtain ⟨typeIndex, pairs⟩ := a
  obtain ⟨-, hpairs⟩ := admissible_mk.1 ⟨hrefs, le_rfl⟩
  obtain ⟨hname, hvalue⟩ := hpairs p hp
  exact ⟨hname, hvalue.references, hheight⟩

/-- An annotation with references that resolve is read if none of its values is nested too deep. -/
theorem Annotation.admissible_of_heights {a : Annotation}
    (hrefs : ∀ r ∈ a.references, r.Resolves pool)
    (hheights : ∀ p ∈ a.pairs, p.value.height ≤ levels) : a.Admissible pool levels := by
  obtain ⟨typeIndex, pairs⟩ := a
  obtain ⟨htype, -⟩ := admissible_mk.1 ⟨hrefs, le_rfl⟩
  exact admissible_mk.2 ⟨htype, fun p hp => admissible_of_mem hrefs hp (hheights p hp)⟩

/-- An annotation fails at its first value that is nested too deep. -/
theorem Annotation.fails_readWith {readValue : Reader ElementValue}
    (hreads : readValue.Inverts ElementValue.write fun v => v.Admissible pool levels)
    (hfails : ElementValue.Bounds pool levels readValue) {a : Annotation}
    (hrefs : ∀ r ∈ a.references, r.Resolves pool) (hheight : levels < a.height)
    (hwrite : a.write = .ok bytes) (start : Nat) (further : Bytes) :
    (readWith pool readValue).Fails start (bytes ++ further) Fault.IsTooDeep := by
  obtain ⟨typeIndex, pairs⟩ := a
  obtain ⟨y, hy, rfl⟩ := write_eq_ok.1 hwrite
  obtain ⟨htype, hpairs⟩ := admissible_mk.1 ⟨hrefs, le_rfl⟩
  obtain ⟨type, htype⟩ := ConstantPool.exists_text_eq_ok.2 htype
  -- If each of the values were within the limit, the annotation would be.
  have hexists : ∃ p ∈ pairs, ¬(pool.Refers p.nameIndex [.utf8] ∧
      p.value.Admissible pool levels) := by
    by_contra! hall
    have hbound := admissible_mk.2 ⟨ConstantPool.exists_text_eq_ok.1 ⟨type, htype⟩, hall⟩
    exact absurd hbound.height_le (Nat.not_le.2 hheight)
  have htable (start : Nat) : (table fun _ => ElementPair.readWith pool readValue).Fails start
      (y ++ further) Fault.IsTooDeep := by
    refine .table_each (fun _ => ElementPair.inverts_readWith hreads) ?_ hexists hy start further
    intro p hp hdeep x hx _ start further
    obtain ⟨hname, hvalue⟩ := hpairs p hp
    have hlt : levels < p.value.height := by
      by_contra hle
      exact hdeep ⟨hname, hvalue.references, Nat.not_lt.1 hle⟩
    obtain ⟨z, hz, rfl⟩ : ∃ z, p.value.write = .ok z ∧ Writer.u2 p.nameIndex ++ z = x := by
      simpa [ElementPair.write] using hx
    rw [List.append_assoc]
    exact ElementPair.fails_readWith hname (hfails p.value hvalue.references hlt z hz _ _)
  rw [List.append_assoc]
  refine .next reads_u2 rfl (.skip (Reads.check _) ⟨inside_eq_ok.2 htype, rfl⟩ ?_)
  exact (htable _).within.bind

namespace ElementValue

/-- A reader for a number of levels refuses what is nested deeper, by induction on the levels: it
    runs out of them inside of the value. -/
theorem bounds_readWithin (pool : ConstantPool) (levels : Nat) :
    Bounds pool levels (readWithin pool levels) := by
  induction levels with
  | zero =>
    intro v _ _ x _ start further c _ _
    exact ⟨_, _, _, rfl, rfl, rfl⟩
  | succ levels ih =>
    intro v hrefs hheight x hx start further
    cases v with
    | constant | enum => exact absurd hheight (Nat.not_lt.2 (Nat.le_add_left 1 levels))
    | nested a =>
      obtain ⟨y, hy, rfl⟩ := write_nested.1 hx
      have ha := Annotation.fails_readWith (inverts_readWithin pool levels) ih (a := a) hrefs
        (Nat.lt_of_succ_lt_succ hheight) hy (start + 1) further
      rw [List.append_assoc]
      exact .offset (.next reads_u1 rfl ha.bind)
    | array values =>
      obtain ⟨y, hy, rfl⟩ := write_array.1 hx
      have hvalues :=
        admissible_array.1 (⟨hrefs, le_rfl⟩ : (array values).Admissible pool (maxHeight values + 1))
      -- If each of the items were within the limit, the array would be.
      have hexists : ∃ v ∈ values, ¬v.Admissible pool levels := by
        by_contra! hall
        exact absurd (admissible_array.2 hall).height_le (Nat.not_le.2 hheight)
      have htable : (table fun _ => readWithin pool levels).Fails (start + 1)
          (y ++ further) Fault.IsTooDeep := by
        refine .table_each (fun _ => inverts_readWithin pool levels) ?_ hexists hy _ _
        intro v hv hdeep x hx _ start further
        have hlt : levels < v.height := by
          by_contra hle
          exact hdeep ⟨(hvalues v hv).references, Nat.not_lt.1 hle⟩
        exact ih v (hvalues v hv).references hlt x hx start further
      rw [List.append_assoc]
      exact .offset (.next reads_u1 rfl htable.bind)

end ElementValue

/-! ### What is read for a value that was written -/

namespace Reader

variable {α : Type} {r : Reader α} {a : α} {fault : Fault}

/-- Whatever follows the bytes, the reader gives the value for them, and takes just these. -/
def Yields (r : Reader α) (bytes : Bytes) (a : α) : Prop :=
  ∀ (c : Cursor) (further : Bytes), c.rest = bytes ++ further →
    ∃ c', r c = .ok a c' ∧ c'.rest = further ∧ c'.offset = c.offset + bytes.length

/-- Whatever follows the bytes, the reader fails on them with the fault. -/
def Refuses (r : Reader α) (bytes : Bytes) (fault : Fault) : Prop :=
  ∀ (c : Cursor) (further : Bytes), c.rest = bytes ++ further →
    ∃ f c', r c = .error f c' ∧ f.fault? = some fault

/-- A reader of spellings yields each value for its spelling. -/
theorem Reads.yields {L : Spelling α} (h : r.Reads L) (ha : L a bytes) : r.Yields bytes a := by
  intro c further hc
  obtain ⟨c', hr, past⟩ := h.complete ha hc
  exact ⟨c', hr, past.rest_eq hc, past.offset⟩

/-- A reader that fails wherever it is refuses the bytes. -/
theorem Fails.refuses (h : ∀ start further, r.Fails start (bytes ++ further) fun f => f = fault) :
    r.Refuses bytes fault := by
  intro c further hc
  obtain ⟨f, c', _, hr, hfault, rfl⟩ := h c.offset further c rfl hc
  exact ⟨f, c', hr, hfault⟩

end Reader

/-- The value of one of the elements of an annotation that was written. -/
theorem ElementValue.exists_front {v : ElementValue} {a : Annotation} {nameIndex : UInt16} {k : Nat}
    (hk : a.pairs[k]? = some ⟨nameIndex, v⟩) {whole : Bytes} (ha : a.write = .ok whole) :
    ∃ before after bytes, Writer.Stands ElementPair.write a.pairs k before after ∧
      v.write = .ok bytes ∧
        whole = Writer.u2 a.typeIndex ++ before ++ Writer.u2 nameIndex ++ bytes ++ after := by
  obtain ⟨typeIndex, pairs⟩ := a
  obtain ⟨y, hy, rfl⟩ := Annotation.write_eq_ok.1 ha
  obtain ⟨before, row, after, hstands, hrow, rfl⟩ := Writer.exists_stands hy hk
  obtain ⟨bytes, hbytes, rfl⟩ : ∃ bytes, v.write = .ok bytes ∧ Writer.u2 nameIndex ++
      bytes = row := by
    simpa [ElementPair.write] using hrow
  exact ⟨before, after, bytes, hstands, hbytes, by simp⟩

/-- An annotation fails at a value that is nested too deep, whatever follows that value. -/
theorem Annotation.fails_read_of_stands {v : ElementValue} {a : Annotation} {nameIndex : UInt16}
    {k : Nat} {before after : Bytes} (hrefs : ∀ r ∈ a.references, r.Resolves pool)
    (hcounts : ∀ n ∈ a.counts, n ≤ 65535) (hk : a.pairs[k]? = some ⟨nameIndex, v⟩)
    (hbefore : ∀ p ∈ a.pairs.take k, p.value.height ≤ ElementValue.maxDepth)
    (hstands : Writer.Stands ElementPair.write a.pairs k before after)
    (hheight : ElementValue.maxDepth < v.height) (hwrite : v.write = .ok bytes) (start : Nat)
    (further : Bytes) :
    (read pool).Fails start
      (Writer.u2 a.typeIndex ++ before ++ Writer.u2 nameIndex ++ bytes ++ further)
      Fault.IsTooDeep := by
  obtain ⟨hindex, -⟩ := List.getElem?_eq_some_iff.1 hk
  obtain ⟨hname, hvalue⟩ := admissible_of_mem hrefs (List.mem_of_getElem? hk) le_rfl
  obtain ⟨typeIndex, pairs⟩ := a
  obtain ⟨type, htype⟩ := ConstantPool.exists_text_eq_ok.2 (admissible_mk.1 ⟨hrefs, le_rfl⟩).1
  have hpair (start : Nat) : (ElementPair.readWith pool (ElementValue.read pool)).Fails start
      (Writer.u2 nameIndex ++ (bytes ++ further)) Fault.IsTooDeep :=
    ElementPair.fails_readWith hname
      (ElementValue.bounds_readWithin pool _ v hvalue.references hheight bytes hwrite _ further)
  have htable : (table fun _ => ElementPair.readWith pool (ElementValue.read pool)).Fails
      (start + 2) (before ++ (Writer.u2 nameIndex ++ (bytes ++ further))) Fault.IsTooDeep :=
    .row_of_take (fun _ => ElementPair.inverts_readWith (ElementValue.inverts_read pool)) hstands
      (Nat.lt_succ_of_le (hcounts _ List.mem_cons_self)) hindex
      (fun p hp => admissible_of_mem hrefs (List.mem_of_mem_take hp) (hbefore p hp)) fun _ =>
      hpair _
  simp only [List.append_assoc]
  refine .next reads_u2 rfl (.skip (Reads.check _) ⟨inside_eq_ok.2 htype, rfl⟩ ?_)
  exact htable.within.bind

/-- What is read for the bytes that are written for a value with references that resolve. -/
theorem ElementValue.read_by_height {v : ElementValue} (hrefs : ∀ r ∈ v.references, r.Resolves pool)
    (hcounts : ∀ n ∈ v.counts, n ≤ 65535) : ∃ bytes, v.write = .ok bytes ∧
    (v.height ≤ 256 → (read pool).Yields bytes v) ∧
    (256 < v.height → (read pool).Refuses bytes (.malformed .elementDepth)) ∧
    ∀ (a : Annotation) (nameIndex : UInt16) (k : Nat), a.pairs[k]? = some ⟨nameIndex, v⟩ →
      (∀ r ∈ a.references, r.Resolves pool) → (∀ n ∈ a.counts, n ≤ 65535) →
      (∀ j p, j ≠ k → a.pairs[j]? = some p → p.value.height ≤ 256) →
      ∃ before after, Writer.Stands ElementPair.write a.pairs k before after ∧
        a.write = .ok (Writer.u2 a.typeIndex ++ before ++ Writer.u2 nameIndex ++ bytes ++ after) ∧
        (v.height ≤ 256 → Yields (r := Annotation.read pool)
          (Writer.u2 a.typeIndex ++ before ++ Writer.u2 nameIndex ++ bytes ++ after) a) ∧
        (256 < v.height → Refuses (r := Annotation.read pool)
          (Writer.u2 a.typeIndex ++ before ++ Writer.u2 nameIndex ++ bytes)
          (.malformed .elementDepth)) := by
  obtain ⟨bytes, hwrite⟩ := v.exists_write_iff.2 hcounts
  refine ⟨bytes, hwrite, ?_, ?_, ?_⟩
  · intro hheight
    exact (inverts_read pool).yields ⟨hwrite, hrefs, hheight⟩
  · intro hheight
    exact Fails.refuses (bounds_readWithin pool maxDepth v hrefs hheight bytes hwrite)
  · intro a nameIndex k hk harefs hacounts hothers
    obtain ⟨whole, hwhole⟩ := a.exists_write_iff.2 hacounts
    obtain ⟨before, after, bytes', hstands, hbytes', rfl⟩ := exists_front hk hwhole
    obtain rfl : bytes' = bytes := by simpa [hwrite] using hbytes'.symm
    refine ⟨before, after, hstands, hwhole, ?_, ?_⟩
    · intro hheight
      -- The value is as high as it may be, and so are the others.
      have hall : ∀ p ∈ a.pairs, p.value.height ≤ 256 := by
        intro p hp
        obtain ⟨j, hj⟩ := List.mem_iff_getElem?.1 hp
        by_cases hjk : j = k
        · obtain rfl : p = ⟨nameIndex, v⟩ := by simpa [hjk, hk] using hj.symm
          exact hheight
        · exact hothers j p hjk hj
      have hreads := Annotation.inverts_read pool
      exact hreads.yields ⟨hwhole, Annotation.admissible_of_heights harefs hall⟩
    · intro hheight
      have hbefore : ∀ p ∈ a.pairs.take k, p.value.height ≤ maxDepth := by
        intro p hp
        obtain ⟨j, hj, rfl⟩ := List.mem_take_iff_getElem.1 hp
        refine hothers j _ ?_ (List.getElem?_eq_getElem _)
        omega
      have hfails :=
        Annotation.fails_read_of_stands harefs hacounts hk hbefore hstands hheight hwrite
      exact Fails.refuses hfails

/-- Arrays in one another, the innermost of which is empty. -/
def ElementValue.tower : Nat → ElementValue
  | 0 => array []
  | n + 1 => array [tower n]

/-- Each array around the innermost one adds a level. -/
theorem ElementValue.height_tower (n : Nat) : (tower n).height = n + 1 := by
  induction n with
  | zero => rfl
  | succ n ih => simp [tower, height, maxHeight, ih]

theorem ElementValue.references_tower (n : Nat) : (tower n).references = [] := by
  induction n with
  | zero => rfl
  | succ n ih => simp [tower, references, allReferences, ih]

theorem ElementValue.counts_tower (n : Nat) : ∀ m ∈ (tower n).counts, m ≤ 65535 := by
  induction n with
  | zero => decide
  | succ n ih => simpa [tower, counts, allCounts] using ih

/-- A tower of 256 arrays is read back, as the value of an annotation, too. One of 257 is
    refused. -/
theorem ElementValue.read_by_height_tower :
    let pool : ConstantPool := ⟨#[none, some (.ofString "A")]⟩
    (∃ bytes, (tower 255).write = .ok bytes ∧ (read pool).Yields bytes (tower 255)) ∧
    (∃ bytes, Annotation.write ⟨1, [⟨1, tower 255⟩]⟩ = .ok bytes ∧
      Yields (r := Annotation.read pool) bytes ⟨1, [⟨1, tower 255⟩]⟩) ∧
    ∃ bytes, (tower 256).write = .ok bytes ∧ (read pool).Refuses bytes
        (.malformed .elementDepth) := by
  intro pool
  have hrefs (n : Nat) : ∀ r ∈ (tower n).references, r.Resolves pool := by
    simp [references_tower]
  obtain ⟨bytes, hbytes, hyields, -, hannotation⟩ := read_by_height (hrefs 255) (counts_tower 255)
  obtain ⟨bytes', hbytes', -, hrefuses, -⟩ := read_by_height (hrefs 256) (counts_tower 256)
  have hname : pool.Refers 1 [.utf8] := by decide
  have hothers (j : Nat) (p : ElementPair) (hj : j ≠ 0) (hp : [⟨1, tower 255⟩][j]? = some p) :
      p.value.height ≤ 256 := by
    simp [hj] at hp
  obtain ⟨before, after, -, hwrite, hread, -⟩ := hannotation ⟨1, [⟨1, tower 255⟩]⟩ 1 0 rfl
    (by simp [ElementPair.allReferences, Annotation.references, references_tower, hname])
    (by simpa [ElementPair.allCounts, Annotation.counts] using counts_tower 255) hothers
  exact ⟨⟨bytes, hbytes, hyields (height_tower 255).le⟩, ⟨_, hwrite, hread (height_tower 255).le⟩,
    bytes', hbytes', hrefuses (height_tower 256).ge⟩

end ClassFormat
