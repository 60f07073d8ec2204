import Mathlib
import ClassFormat.StackMap
import ClassFormat.Proofs.Code.Offset

/-!
# Stack maps, read back

A table of frames is read back from what is written for it exactly if its references resolve
and its code offsets are right. The offset of a frame depends on all frames before it.

* `StackMapFrame.references`, `StackMapFrame.tableOffsets`: what a table refers to;
* `VerificationType.reads_read`, `StackMapFrame.inverts_read`: a type and a frame;
* `StackMapFrame.inverts_readTable`: the table.
-/

namespace ClassFormat

open Reader

variable (s : Surroundings)

/-! ### Types -/

namespace VerificationType

/-- The references of a type. -/
def references : VerificationType → List Reference
  | object index => [.required index [.classref]]
  | _ => []

/-- The code offsets of a type. -/
def offsets : VerificationType → List CodeOffset
  | uninitialized offset => [.start offset.toNat]
  | _ => []

/-- Every reference of the type resolves, and its code offsets are right. -/
def AdmittedBy (s : Surroundings) (t : VerificationType) : Prop :=
  (∀ r ∈ t.references, r.Resolves s.pool) ∧ ∀ o ∈ t.offsets, s.Admits o

theorem write_ne_nil (t : VerificationType) : t.write ≠ [] := by
  cases t <;> exact List.cons_ne_nil _ _

/-- A verification type is read as it is written, if what it refers to is there. -/
theorem reads_read : (read s).Reads fun t bytes => bytes = t.write ∧ t.AdmittedBy s := by
  refine Reads.firstByte (fun t h => t.write_ne_nil h.1.symm) fun tag => ?_
  split
  case h_8 =>
    refine Reads.congr ((s.pool.reads_index [.classref]).bind fun index => Reads.pure _)
      fun t y => ?_
    cases t <;> simp [write, Writer.u1, AdmittedBy, references, offsets, and_comm]
  case h_9 =>
    refine Reads.congr (reads_u2.bind fun offset => Reads.guard (s.ifCode fun code =>
      code.requireStart .uninitialized offset.toNat) fun _ => Reads.pure _) fun t y => ?_
    cases t <;> simp [write, Writer.u1, AdmittedBy, references, offsets, and_comm]
  case h_10 =>
    refine Reads.congr (Reads.raise _) fun t y => ?_
    cases t <;> simp_all [write, Writer.u1]
  all_goals
    refine Reads.congr (Reads.pure _) fun t y => ?_
    cases t <;> simp [write, Writer.u1, AdmittedBy, references, offsets]

theorem inverts_read : (read s).Inverts (fun t => .ok t.write) fun t => t.AdmittedBy s :=
  (reads_read s).congr fun t bytes => by simp [eq_comm]

end VerificationType

/-! ### Frames -/

namespace StackMapFrame

/-- The types that a frame holds. -/
def types : StackMapFrame → List VerificationType
  | sameOneItem _ stack | sameOneItemExtended _ stack => [stack]
  | append _ locals => locals
  | full _ locals stack => locals ++ stack
  | _ => []

/-- What is written for a frame, after the byte for its type. -/
def Spelled (type : UInt8) (y : Bytes) : StackMapFrame → Prop
  | same delta => delta ≤ 63 ∧ type = delta ∧ y = []
  | sameOneItem delta stack => delta ≤ 63 ∧ type = 64 + delta ∧ y = stack.write
  | sameOneItemExtended delta stack => type = 247 ∧ y = Writer.u2 delta ++ stack.write
  | chop chopped delta => chopped ≠ 0 ∧ chopped ≤ 3 ∧ type = 251 - chopped ∧ y = Writer.u2 delta
  | sameExtended delta => type = 251 ∧ y = Writer.u2 delta
  | append delta locals => locals ≠ [] ∧ locals.length ≤ 3 ∧
      type = 251 + UInt8.ofNat locals.length ∧ y = Writer.u2 delta ++
      locals.flatMap VerificationType.write
  | full delta locals stack => type = 255 ∧ ∃ a b,
      Writer.table (fun t => .ok t.write) locals = .ok a ∧
        Writer.table (fun t => .ok t.write) stack = .ok b ∧ y = Writer.u2 delta ++ (a ++ b)

/-- A frame is written as one of the forms, the first byte of which tells which form it is. -/
theorem write_cons {frame : StackMapFrame} {type : UInt8} {y : Bytes} :
    frame.write = .ok (Writer.u1 type ++ y) ↔ frame.Spelled type y := by
  cases frame with
  | full delta locals stack =>
    simp only [write, Spelled, Writer.u1, bind_eq_ok, pure_eq_ok]
    constructor
    · rintro ⟨a, ha, b, hb, h⟩
      obtain ⟨rfl, rfl⟩ := List.cons_eq_cons.1 h
      exact ⟨rfl, a, b, ha, hb, by simp⟩
    · rintro ⟨rfl, a, b, ha, hb, rfl⟩
      exact ⟨a, ha, b, hb, by simp⟩
  | _ => simp [write, Spelled, Writer.u1, eq_comm (b := type), eq_comm (b := y), and_assoc]

/-- A frame takes at least one byte. -/
theorem ne_nil_of_write {frame : StackMapFrame} {bytes : Bytes} (h : frame.write = .ok bytes) :
    bytes ≠ [] := by
  rintro rfl
  cases frame <;> simp [write, Writer.u1] at h

/-- Up to three locals can be told from the byte for the type of the frame. -/
theorem appendType {n : Nat} (h0 : n ≠ 0) (h3 : n ≤ 3) :
    251 < 251 + UInt8.ofNat n ∧ 251 + UInt8.ofNat n ≤ 254 ∧
      (251 + UInt8.ofNat n - 251).toNat = n := by
  interval_cases n
  · exact absurd rfl h0
  all_goals decide

/-- The byte for the type of a frame tells the sorts of frames apart. -/
theorem Spelled.bounds {frame : StackMapFrame} {type : UInt8} {y : Bytes}
    (h : frame.Spelled type y) :
    match frame with
    | same _ => type ≤ 63
    | sameOneItem .. => 63 < type ∧ type ≤ 127
    | sameOneItemExtended .. => type = 247
    | chop .. => 247 < type ∧ type ≤ 250
    | sameExtended _ => type = 251
    | append .. => 251 < type ∧ type ≤ 254
    | full .. => type = 255 := by
  cases frame with
  | append delta locals =>
    obtain ⟨h0, h3, rfl, -⟩ := h
    have := appendType (by simpa using h0) h3
    exact ⟨this.1, this.2.1⟩
  | _ => simp only [Spelled] at h; grind

/-- The references of a frame. -/
def references (frame : StackMapFrame) : List Reference :=
  frame.types.flatMap VerificationType.references

/-- The code offsets that a frame holds, other than its own. -/
def offsets (frame : StackMapFrame) : List CodeOffset :=
  frame.types.flatMap VerificationType.offsets

/-- Every type of the frame is admitted. -/
def AdmittedBy (s : Surroundings) (frame : StackMapFrame) : Prop :=
  ∀ t ∈ frame.types, t.AdmittedBy s

/-- A frame is admitted if its references resolve and its offsets are verified, if there are any. -/
theorem admittedBy_iff {frame : StackMapFrame} : frame.AdmittedBy s ↔
    (∀ r ∈ frame.references, r.Resolves s.pool) ∧ ∀ o ∈ frame.offsets, s.Admits o := by
  simp only [AdmittedBy, VerificationType.AdmittedBy, references, offsets, List.forall_mem_flatMap,
    forall_and]

/-- The frames of a type that tells how many locals follow. -/
theorem reads_append {type : UInt8} (hlow : 251 < type) (hhigh : type ≤ 254) :
    Reads (do return append (← u2) (← times (type - 251).toNat fun _ => VerificationType.read s))
      fun frame y => frame.Spelled type y ∧ frame.AdmittedBy s := by
  refine Reads.congr (reads_u2.bind fun delta =>
    (Reads.times (fun _ => VerificationType.reads_read s) _).bind
    fun locals => Reads.pure _) fun frame y => ⟨?_, ?_⟩
  · rintro ⟨delta, _, rfl, _, ⟨locals, _, ⟨hn, hy⟩, _, ⟨rfl, rfl⟩, rfl⟩, rfl⟩
    rw [Spelling.each_and, Spelling.each_eq] at hy
    obtain ⟨rfl, hadm⟩ := hy
    have hrange : type - 251 ≠ 0 ∧ type - 251 ≤ 3 := by grind
    refine ⟨⟨?_, ?_, ?_, by simp⟩, hadm⟩
    · rintro rfl
      exact hrange.1 (UInt8.toNat_inj.1 hn.symm)
    · exact hn ▸ UInt8.le_iff_toNat_le.1 hrange.2
    · rw [hn, UInt8.ofNat_toNat]
      grind
  · rintro ⟨h, hadm⟩
    have hb := h.bounds
    cases frame with
    | append delta locals =>
      obtain ⟨h0, h3, rfl, rfl⟩ := h
      have hn := (appendType (by simpa using h0) h3).2.2
      have hlocals : Spelling.each (fun t x => x = t.write ∧ t.AdmittedBy s) locals
          (locals.flatMap VerificationType.write) :=
        (Spelling.each_and locals).2 ⟨(Spelling.each_eq ..).2 rfl, hadm⟩
      exact ⟨delta, _, rfl, _, ⟨locals, _, ⟨hn.symm, hlocals⟩, [], ⟨rfl, rfl⟩, rfl⟩, by simp⟩
    | _ => grind

/-- The frames that hold all types. -/
theorem reads_full {type : UInt8} (htype : type = 255) :
    Reads (do
      let types := fun _ => VerificationType.read s
      return full (← u2) (← table types) (← table types)) fun frame y =>
        frame.Spelled type y ∧ frame.AdmittedBy s := by
  have htypes : Inverts (table fun _ => VerificationType.read s) (Writer.table fun t => .ok t.write)
    fun types => ∀ t ∈ types, t.AdmittedBy s :=
    Inverts.table fun _ => VerificationType.inverts_read s
  refine Reads.congr (reads_u2.bind fun delta => htypes.bind fun locals => htypes.bind fun stack =>
    Reads.pure _) fun frame y => ⟨?_, ?_⟩
  · rintro ⟨delta, _, rfl, _, ⟨locals, a, ⟨ha, hlocals⟩, _, ⟨stack, b, ⟨hb, hstack⟩, _, ⟨rfl, rfl⟩,
      rfl⟩, rfl⟩, rfl⟩
    exact ⟨⟨htype, a, b, ha, hb, by simp⟩, List.forall_mem_append.2 ⟨hlocals, hstack⟩⟩
  · rintro ⟨h, hadm⟩
    have hb := h.bounds
    cases frame with
    | full delta locals stack =>
      obtain ⟨-, a, b, ha, hb, rfl⟩ := h
      obtain ⟨hlocals, hstack⟩ := List.forall_mem_append.1 hadm
      exact ⟨delta, _, rfl, _, ⟨locals, a, ⟨ha, hlocals⟩, _, ⟨stack, b, ⟨hb, hstack⟩, [],
        ⟨rfl, rfl⟩, rfl⟩, rfl⟩, by simp⟩
    | _ => grind

theorem inverts_read : (read s).Inverts write fun frame => frame.AdmittedBy s := by
  refine Reads.firstByte (fun frame h => ne_nil_of_write h.1 rfl) fun type => ?_
  simp only [write_cons]
  -- The types are divided into ranges, one for each sort of frame and one that is reserved. A frame
  -- of another sort is excluded by the range of its own type.
  split_ifs with h₁ h₂ h₃ h₄ h₅ h₆ h₇
  case pos =>
    refine Reads.congr (Reads.pure _) fun frame y => ⟨?_, ?_⟩
    · rintro ⟨rfl, rfl⟩
      exact ⟨⟨h₁, rfl, rfl⟩, nofun⟩
    · rintro ⟨h, -⟩
      have hb := h.bounds
      cases frame with
      | same delta => exact ⟨h.2.1 ▸ rfl, h.2.2⟩
      | _ => grind
  case pos =>
    refine (VerificationType.reads_read s).map.congr fun frame y => ⟨?_, ?_⟩
    · rintro ⟨t, rfl, rfl, ht⟩
      exact ⟨⟨by grind, by grind, rfl⟩, by simpa [AdmittedBy, types] using ht⟩
    · rintro ⟨h, hadm⟩
      have hb := h.bounds
      cases frame with
      | sameOneItem delta t =>
        obtain ⟨-, rfl, rfl⟩ := h
        exact ⟨t, by simp, rfl, by simpa [AdmittedBy, types] using hadm⟩
      | _ => grind
  case pos =>
    refine Reads.congr (Reads.raise _) fun frame y => ⟨False.elim, ?_⟩
    rintro ⟨h, -⟩
    have hb := h.bounds
    cases frame <;> grind
  case pos =>
    refine Reads.congr (reads_u2.bind fun delta => (VerificationType.reads_read s).bind fun t =>
      Reads.pure _) fun frame y => ⟨?_, ?_⟩
    · rintro ⟨delta, _, rfl, _, ⟨t, _, ⟨rfl, ht⟩, _, ⟨rfl, rfl⟩, rfl⟩, rfl⟩
      exact ⟨⟨h₄, by simp⟩, by simpa [AdmittedBy, types] using ht⟩
    · rintro ⟨h, hadm⟩
      have hb := h.bounds
      cases frame with
      | sameOneItemExtended delta t =>
        obtain ⟨-, rfl⟩ := h
        exact ⟨delta, _, rfl, _, ⟨t, _, ⟨rfl, by simpa [AdmittedBy, types] using hadm⟩, [],
          ⟨rfl, rfl⟩, rfl⟩, by simp⟩
      | _ => grind
  case pos =>
    refine reads_u2.map.congr fun frame y => ⟨?_, ?_⟩
    · rintro ⟨delta, rfl, rfl⟩
      exact ⟨⟨by grind, by grind, by grind, rfl⟩, nofun⟩
    · rintro ⟨h, -⟩
      have hb := h.bounds
      cases frame with
      | chop chopped delta =>
        obtain ⟨-, -, rfl, rfl⟩ := h
        exact ⟨delta, by simp, rfl⟩
      | _ => grind
  case pos =>
    refine reads_u2.map.congr fun frame y => ⟨?_, ?_⟩
    · rintro ⟨delta, rfl, rfl⟩
      exact ⟨⟨h₆, rfl⟩, nofun⟩
    · rintro ⟨h, -⟩
      have hb := h.bounds
      cases frame with
      | sameExtended delta =>
        obtain ⟨-, rfl⟩ := h
        exact ⟨delta, rfl, rfl⟩
      | _ => grind
  case pos => exact reads_append s (by grind) h₇
  case neg => exact reads_full s (by grind)

/-! ### Tables -/

/-- The code offsets of the frames that follow one at the offset `previous`. -/
def offsetsAfter (previous : Option Nat) : List StackMapFrame → List CodeOffset
  | [] => []
  | frame :: rest =>
    .start (frame.offsetAfter previous) :: offsetsAfter (some (frame.offsetAfter previous)) rest

/-- Frames are read one after another, each with the sum of the offsets before it. -/
theorem reads_readFrom (index n : Nat) (previous : Option Nat) (done : List StackMapFrame) :
    (readFrom s index previous done n).Reads fun frames bytes =>
      ∃ added, frames = done.reverse ++ added ∧ added.length = n ∧
        Spelling.each (fun frame x => frame.write = .ok x ∧ frame.AdmittedBy s) added bytes ∧
        ∀ o ∈ offsetsAfter previous added, s.Admits o := by
  -- The offset of the frame before is generalized, as those of all that follow are counted from it.
  induction n generalizing index previous done with
  | zero =>
    refine (Reads.pure done.reverse).congr fun frames bytes => ⟨?_, ?_⟩
    · rintro ⟨rfl, rfl⟩
      exact ⟨[], (List.append_nil _).symm, rfl, rfl, nofun⟩
    · rintro ⟨added, rfl, hn, hb, -⟩
      obtain rfl := List.eq_nil_of_length_eq_zero hn
      exact ⟨List.append_nil _, hb⟩
  | succ n ih =>
    refine Reads.congr ((inverts_read s).within.bind fun frame =>
      Reads.guard (Failure.inside (.inFrame index)
      (s.ifCode fun code => code.requireStart .stackMapFrame (frame.offsetAfter previous))) fun _ =>
        ih (index + 1) (some (frame.offsetAfter previous)) (frame :: done)) fun frames bytes => ?_
    simp only [inside_eq_ok, exists_unit_eq_ok, Surroundings.ifCode_requireStart]
    constructor
    · rintro ⟨frame, x, hx, _, ⟨hstart, added, rfl, rfl, hy, hoffsets⟩, rfl⟩
      exact ⟨frame :: added, by simp, rfl, ⟨x, _, hx, hy, rfl⟩,
        List.forall_mem_cons.2 ⟨hstart, hoffsets⟩⟩
    · rintro ⟨_ | ⟨frame, added⟩, rfl, hn, hb, hoffsets⟩
      · cases hn
      · obtain ⟨x, y, hx, hy, rfl⟩ := hb
        obtain ⟨hstart, hoffsets⟩ := List.forall_mem_cons.1 hoffsets
        exact ⟨frame, x, hx, y, ⟨hstart, added, by simp, by simpa using hn, hy, hoffsets⟩, rfl⟩

/-- The code offsets of a table of frames. -/
def tableOffsets (frames : List StackMapFrame) : List CodeOffset :=
  offsetsAfter none frames ++ frames.flatMap offsets

/-- A stack map is read as it is written, if its references resolve and its frames lie at starts of
    instructions. -/
theorem inverts_readTable : (readTable s).Inverts writeTable fun frames =>
    (∀ frame ∈ frames, ∀ r ∈ frame.references, r.Resolves s.pool) ∧
      ∀ o ∈ tableOffsets frames, s.Admits o := by
  refine Reads.congr (reads_u2.bind fun n => reads_readFrom s 0 n.toNat none [])
    fun frames bytes => ?_
  simp only [writeTable, Writer.table_eq_ok, Spelling.each_and, List.reverse_nil, List.nil_append,
    admittedBy_iff, tableOffsets, List.forall_mem_append, List.forall_mem_flatMap, forall_and]
  constructor
  · rintro ⟨n, _, rfl, y, ⟨_, rfl, hn, ⟨hy, hrefs, htypes⟩, hoffsets⟩, rfl⟩
    exact ⟨⟨hn ▸ n.toNat_lt, y, hy, by rw [hn, UInt16.ofNat_toNat]⟩, hrefs, hoffsets, htypes⟩
  · rintro ⟨⟨hn, y, hy, rfl⟩, hrefs, hoffsets, htypes⟩
    exact ⟨_, _, rfl, y, ⟨frames, rfl, (UInt16.toNat_ofNat_of_lt' hn).symm, ⟨hy, hrefs, htypes⟩,
      hoffsets⟩, rfl⟩

end StackMapFrame

end ClassFormat
