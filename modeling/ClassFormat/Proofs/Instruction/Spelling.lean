import Mathlib
import ClassFormat.Instruction.Encode
import ClassFormat.Proofs.ConstantPool.Reference

/-!
# Instructions as they are stored

The form of an instruction as rules: what each layout of operands makes of them. The writer
writes exactly these forms, and the reader takes them off, if the operands are admissible and
refer to constants of the right kinds.

* `Operands.Spelled`, `Instruction.Spelled`: the forms, at a position of the code;
* `Instruction.write_eq_ok`: what is written;
* `Instruction.reads_read`: what is read.
-/

namespace ClassFormat

open Reader

/-! ### The forms -/

/-- The operands of an instruction at `position`, in a layout. -/
inductive Operands.Spelled (position : Nat) : OperandLayout → Operands → Bytes → Prop
  | none : Spelled position .none .none []
  | byte (value) : Spelled position .byte (.byte value) (Writer.i1 value)
  | short (value) : Spelled position .short (.short value) (Writer.i2 value)
  | arrayType (code) : Spelled position .arrayType (.arrayType code) (Writer.u1 code)
  | narrowConstant (kinds) (index : UInt8) :
    Spelled position (.narrowConstant kinds) (.constant index.toUInt16) (Writer.u1 index)
  | constant (kinds index) : Spelled position (.constant kinds) (.constant index) (Writer.u2 index)
  | local (index : UInt8) : Spelled position .local (.local index.toUInt16 false) (Writer.u1 index)
  | increment (index : UInt8) (amount : Int8) : Spelled position .increment
    (.increment index.toUInt16 amount.toInt16 false) (Writer.u1 index ++ Writer.i1 amount)
  | branch (relative : Int16) :
    Spelled position .branch (.branch relative.toInt32) (Writer.i2 relative)
  | branchWide (relative) : Spelled position .branchWide (.branch relative) (Writer.i4 relative)
  | tableSwitch {default low high : Int32} {offsets : List Int32}
    (hsize : high.toInt - low.toInt + 1 = offsets.length) :
    Spelled position .tableSwitch (.tableSwitch default low high offsets)
      (List.replicate (switchPadding position) 0 ++ Writer.i4 default ++ Writer.i4 low ++
        Writer.i4 high ++ offsets.flatMap Writer.i4)
  | lookupSwitch {default : Int32} {pairs : List (Int32 × Int32)} (hsize : pairs.length < 2 ^ 31) :
    Spelled position .lookupSwitch (.lookupSwitch default pairs)
      (List.replicate (switchPadding position) 0 ++ Writer.i4 default ++
        Writer.i4 (Int32.ofNat pairs.length) ++
          pairs.flatMap fun (key, relative) => Writer.i4 key ++ Writer.i4 relative)
  | invokeInterface (index count) : Spelled position .invokeInterface
    (.invokeInterface index count) (Writer.u2 index ++ Writer.u1 count ++ [0])
  | invokeDynamic (index) :
    Spelled position .invokeDynamic (.invokeDynamic index) (Writer.u2 index ++ [0, 0])
  | multiANewArray (index dimensions) : Spelled position .multiANewArray
    (.multiANewArray index dimensions) (Writer.u2 index ++ Writer.u1 dimensions)

/-- The operands of an instruction after a `wide` prefix, in a layout. -/
inductive Operands.Widened : OperandLayout → Operands → Bytes → Prop
  | local (index) : Widened .local (.local index true) (Writer.u2 index)
  | increment (index amount) :
    Widened .increment (.increment index amount true) (Writer.u2 index ++ Writer.i2 amount)

/-- An instruction at `position`: an opcode and its operands, perhaps after a `wide` prefix. -/
inductive Instruction.Spelled (position : Nat) : Instruction → Bytes → Prop
  | plain {offset : UInt32} {op : UInt8} {operands : Operands} {layout : OperandLayout} {y : Bytes}
    (hop : Opcode.layout? op = some layout) (hy : operands.Spelled position layout y) :
    Spelled position ⟨offset, op, operands⟩ (Writer.u1 op ++ y)
  | wide {offset : UInt32} {op : UInt8} {operands : Operands} {layout : OperandLayout} {y : Bytes}
    (hop : Opcode.layout? op = some layout) (hy : operands.Widened layout y) :
    Spelled position ⟨offset, op, operands⟩ (Writer.u1 Opcode.wide ++ (Writer.u1 op ++ y))

/-! ### Writing -/

section

variable {n : Nat} {bytes : Bytes}

/-- Numbers that fit into a byte are those that a byte is extended to. -/
theorem exists_toUInt16_eq {index : UInt16} :
    index.toNat < 256 ↔ ∃ b : UInt8, index = b.toUInt16 := by
  constructor
  · intro h
    refine ⟨index.toUInt8, UInt16.toNat_inj.1 ?_⟩
    simp [Nat.mod_eq_of_lt h]
  · rintro ⟨b, rfl⟩
    simpa using b.toNat_lt

/-- A number passes its check if it fits into the bits. -/
theorem checkSigned_eq_ok {bits : Nat} {i : Int} :
    Instruction.checkSigned bits i = .ok () ↔ -2 ^ (bits - 1) ≤ i ∧ i < 2 ^ (bits - 1) := by
  simp [Instruction.checkSigned]
  omega

/-- The amounts that fit into a byte are those that a byte is extended to. -/
theorem exists_toInt16_eq {amount : Int16} :
    Instruction.checkSigned 8 amount.toInt = .ok () ↔ ∃ a : Int8, amount = a.toInt16 := by
  rw [checkSigned_eq_ok]
  constructor
  · rintro ⟨hlow, hhigh⟩
    refine ⟨amount.toInt8, Int16.toInt_inj.1 ?_⟩
    rw [Int8.toInt_toInt16, Int16.toInt_toInt8]
    exact (Int.bmod_eq_of_le hlow hhigh).symm
  · rintro ⟨a, rfl⟩
    rw [Int8.toInt_toInt16]
    exact ⟨a.le_toInt, a.toInt_lt⟩

/-- The displacements that fit into two bytes are those that two bytes are extended to. -/
theorem exists_toInt32_eq {relative : Int32} :
    Instruction.checkSigned 16 relative.toInt = .ok () ↔ ∃ r : Int16, relative = r.toInt32 := by
  rw [checkSigned_eq_ok]
  constructor
  · rintro ⟨hlow, hhigh⟩
    refine ⟨relative.toInt16, Int32.toInt_inj.1 ?_⟩
    rw [Int16.toInt_toInt32, Int32.toInt_toInt16]
    exact (Int.bmod_eq_of_le hlow hhigh).symm
  · rintro ⟨a, rfl⟩
    rw [Int16.toInt_toInt32]
    exact ⟨a.le_toInt, a.toInt_lt⟩

end

namespace Instruction

variable {position : Nat} {i : Instruction} {bytes : Bytes}

/-- An instruction is written as it is spelled. -/
theorem Spelled.write_eq (h : i.Spelled position bytes) : i.write position = .ok bytes := by
  cases h with
  | plain hop hy =>
    cases hy with
    | narrowConstant | «local» =>
      simp only [write, hop, bind_eq_ok, pure_eq_ok, inside_eq_ok, Writer.count_u1_eq_ok]
      exact ⟨_, ⟨exists_toUInt16_eq.2 ⟨_, rfl⟩, rfl⟩, by simp⟩
    | increment index amount =>
      simp only [write, hop, bind_eq_ok, pure_eq_ok, inside_eq_ok, Writer.count_u1_eq_ok]
      exact ⟨_, ⟨exists_toUInt16_eq.2 ⟨_, rfl⟩, rfl⟩, (), exists_toInt16_eq.2 ⟨_, rfl⟩, by simp⟩
    | branch relative =>
      simp only [write, hop, bind_eq_ok, pure_eq_ok, inside_eq_ok]
      exact ⟨(), exists_toInt32_eq.2 ⟨_, rfl⟩, by simp⟩
    | tableSwitch hsize => simp [write, hop, hsize]
    | lookupSwitch hsize =>
      simp only [write, hop, bind_eq_ok, pure_eq_ok, inside_eq_ok]
      exact ⟨(), checkSigned_eq_ok.2 (by omega), by simp⟩
    | _ => simp [write, hop]
  | wide hop hy => cases hy <;> simp [write, hop]

/-- Whatever is written is a spelling. -/
theorem spelled_of_write_eq (h : i.write position = .ok bytes) : i.Spelled position bytes := by
  rcases i with ⟨offset, op, operands⟩
  simp only [write] at h
  split at h
  · cases h
  next layout hop =>
    -- One case for each layout with the operands it asks for, and one for all others.
    split at h
    · cases h
      exact .plain hop .none
    · cases h
      exact .plain hop (.byte _)
    · cases h
      exact .plain hop (.short _)
    · cases h
      exact .plain hop (.arrayType _)
    · obtain ⟨_, hcount, rfl⟩ := by simpa only [bind_eq_ok, pure_eq_ok, inside_eq_ok] using h
      obtain ⟨hn, rfl⟩ := Writer.count_u1_eq_ok.1 hcount
      obtain ⟨b, rfl⟩ := exists_toUInt16_eq.1 hn
      simpa using Spelled.plain hop (.narrowConstant _ b)
    · cases h
      exact .plain hop (.constant _ _)
    · cases h
      simpa using @Spelled.wide position offset op _ _ _ hop (.local _)
    · obtain ⟨_, hcount, rfl⟩ := by simpa only [bind_eq_ok, pure_eq_ok, inside_eq_ok] using h
      obtain ⟨hn, rfl⟩ := Writer.count_u1_eq_ok.1 hcount
      obtain ⟨b, rfl⟩ := exists_toUInt16_eq.1 hn
      simpa using Spelled.plain hop (.local b)
    · cases h
      simpa using @Spelled.wide position offset op _ _ _ hop (.increment _ _)
    · obtain ⟨_, hcount, _, hamount, rfl⟩ := by
        simpa only [bind_eq_ok, pure_eq_ok, inside_eq_ok] using h
      obtain ⟨hn, rfl⟩ := Writer.count_u1_eq_ok.1 hcount
      obtain ⟨b, rfl⟩ := exists_toUInt16_eq.1 hn
      obtain ⟨a, rfl⟩ := exists_toInt16_eq.1 hamount
      simpa using Spelled.plain hop (.increment b a)
    · obtain ⟨_, hrelative, rfl⟩ := by simpa only [bind_eq_ok, pure_eq_ok, inside_eq_ok] using h
      obtain ⟨r, rfl⟩ := exists_toInt32_eq.1 hrelative
      simpa using Spelled.plain hop (.branch r)
    · cases h
      exact .plain hop (.branchWide _)
    · obtain ⟨hsize, rfl⟩ := by simpa using h
      simpa using @Spelled.plain position offset op _ _ _ hop (.tableSwitch hsize)
    · obtain ⟨_, hsize, rfl⟩ := by simpa only [bind_eq_ok, pure_eq_ok, inside_eq_ok] using h
      have := (checkSigned_eq_ok.1 hsize).2
      simpa using @Spelled.plain position offset op _ _ _ hop (.lookupSwitch (by omega))
    · cases h
      simpa using @Spelled.plain position offset op _ _ _ hop (.invokeInterface _ _)
    · cases h
      simpa using @Spelled.plain position offset op _ _ _ hop (.invokeDynamic _)
    · cases h
      simpa using @Spelled.plain position offset op _ _ _ hop (.multiANewArray _ _)
    · cases h

/-- An instruction is written exactly as it is spelled. -/
theorem write_eq_ok : i.write position = .ok bytes ↔ i.Spelled position bytes :=
  ⟨spelled_of_write_eq, Spelled.write_eq⟩

/-- Every instruction takes up bytes. -/
theorem Spelled.ne_nil (h : i.Spelled position bytes) : bytes ≠ [] := by
  cases h <;> exact List.cons_ne_nil _ _

end Instruction

/-! ### Reading -/

namespace Operands

/-- What a reader demands of operands. -/
def Admissible : Operands → Prop
  | arrayType code => 4 ≤ code ∧ code ≤ 11
  | tableSwitch _ low high _ => low ≤ high
  | invokeInterface _ count => count ≠ 0
  | multiANewArray _ dimensions => dimensions ≠ 0
  | _ => True

instance : DecidablePred Admissible
  | arrayType code => inferInstanceAs (Decidable (4 ≤ code ∧ code ≤ 11))
  | tableSwitch _ low high _ => inferInstanceAs (Decidable (low ≤ high))
  | invokeInterface _ count => inferInstanceAs (Decidable (count ≠ 0))
  | multiANewArray _ dimensions => inferInstanceAs (Decidable (dimensions ≠ 0))
  | none | byte _ | short _ | constant _ | .local _ _ | increment _ _ _ |
  branch _ | lookupSwitch _ _
  | invokeDynamic _ => .isTrue trivial

/-- The constant that operands in a layout refer to. -/
def references : OperandLayout → Operands → List Reference
  | .narrowConstant kinds, constant index | .constant kinds, constant index =>
  [.required index kinds]
  | _, invokeInterface index _ => [.required index [.interfaceMethodref]]
  | _, invokeDynamic index => [.required index [.invokeDynamic]]
  | _, multiANewArray index _ => [.required index [.classref]]
  | _, _ => []

/-- Wide operands are admissible, and refer to no constant. -/
theorem Widened.sound {layout : OperandLayout} {operands : Operands} {y : Bytes}
    (h : operands.Widened layout y) : operands.Admissible ∧ operands.references layout = [] := by
  cases h <;> exact ⟨trivial, rfl⟩

end Operands

namespace Instruction

/-- The constant that an instruction refers to. -/
def references (i : Instruction) : List Reference :=
  match Opcode.layout? i.opcode with
  | some layout => i.operands.references layout
  | none => []

/-- A reserved byte is zero. -/
theorem reads_readReserved (which : ReservedByte) :
    (readReserved which).Reads fun _ bytes => bytes = [0] :=
  (reads_u1.bind fun found => Reads.refuse (b := ()) (Reads.pure ())).congr fun u bytes => by
    simp [Writer.u1]

/-- All of the padding is zero. -/
theorem reads_readPadding (which : ReservedByte) (position : Nat) :
    (readPadding which position).Reads fun _ bytes =>
      bytes = List.replicate (switchPadding position) 0 :=
  ((Reads.times (fun _ => reads_readReserved which) (switchPadding position)).bind fun _ =>
    Reads.pure ()).congr fun u bytes => by
      simp only [Spelling.each_singleton]
      constructor
      · rintro ⟨items, _, ⟨hn, rfl⟩, _, ⟨-, rfl⟩, rfl⟩
        rw [hn, List.append_nil]
      · rintro rfl
        exact ⟨List.replicate (switchPadding position) (), _, ⟨List.length_replicate, rfl⟩, [],
          ⟨trivial, rfl⟩, by simp⟩

/-- A count of four bytes that is not negative. -/
theorem exists_count {n : Nat} {count : Int32} :
    ¬count < 0 ∧ n = count.toInt.toNat ↔ n < 2 ^ 31 ∧ count = Int32.ofNat n := by
  rw [Int32.not_lt, Int32.le_iff_toInt_le, Int32.toInt_zero]
  constructor
  · rintro ⟨hcount, rfl⟩
    have := count.toInt_lt
    refine ⟨by omega, Int32.toInt_inj.1 ?_⟩
    rw [Int32.toInt_ofNat_of_lt (by omega), Int.toNat_of_nonneg hcount]
  · rintro ⟨hn, rfl⟩
    rw [Int32.toInt_ofNat_of_lt hn]
    omega

/-- A pair of a switch is a key and a displacement. -/
theorem reads_pair : Reads (do return (← i4, ← i4)) fun (pair : Int32 × Int32) bytes =>
    bytes = Writer.i4 pair.1 ++ Writer.i4 pair.2 :=
  (reads_i4.bind fun key => reads_i4.bind fun relative => Reads.pure (key, relative)).congr
    fun pair bytes => by
      obtain ⟨key, relative⟩ := pair
      simp

variable (pool : ConstantPool) (position : Nat)

/-- A table switch is read with as many displacements as there are between its bounds. -/
theorem reads_tableSwitch : (readOperands pool position .tableSwitch).Reads fun operands y =>
    ∃ (default low high : Int32) (offsets : List Int32), low ≤ high ∧
      high.toInt - low.toInt + 1 = offsets.length ∧
        operands = .tableSwitch default low high offsets ∧
        y = List.replicate (switchPadding position) 0 ++ Writer.i4 default ++ Writer.i4 low ++
          Writer.i4 high ++ offsets.flatMap Writer.i4 := by
  refine Reads.congr ((reads_readPadding _ position).bind fun _ => reads_i4.bind fun default =>
    reads_i4.bind fun low => reads_i4.bind fun high => Reads.refuse (b := ())
      ((Reads.times (fun _ => reads_i4) _).bind fun offsets => Reads.pure _)) fun operands y => ?_
  simp only [Spelling.each_eq Writer.i4, Int32.not_lt]
  constructor
  · rintro ⟨_, _, rfl, _, ⟨default, _, rfl, _, ⟨low, _, rfl, _, ⟨high, _, rfl, _,
      ⟨hbounds, offsets, _, ⟨hsize, rfl⟩, _, ⟨rfl, rfl⟩, rfl⟩, rfl⟩, rfl⟩, rfl⟩, rfl⟩
    have := Int32.le_iff_toInt_le.1 hbounds
    exact ⟨default, low, high, offsets, hbounds, by omega, rfl, by simp⟩
  · rintro ⟨default, low, high, offsets, hbounds, hsize, rfl, rfl⟩
    exact ⟨(), _, rfl, _, ⟨_, _, rfl, _, ⟨low, _, rfl, _, ⟨high, _, rfl, _, ⟨hbounds, offsets, _,
      ⟨by omega, rfl⟩, [], ⟨rfl, rfl⟩, rfl⟩, rfl⟩, rfl⟩, rfl⟩, by simp⟩

/-- A lookup switch is read with the pairs that it counts. -/
theorem reads_lookupSwitch : (readOperands pool position .lookupSwitch).Reads fun operands y =>
    ∃ (default : Int32) (pairs : List (Int32 × Int32)), pairs.length < 2 ^ 31 ∧
      operands = .lookupSwitch default pairs ∧
        y = List.replicate (switchPadding position) 0 ++ Writer.i4 default ++
          Writer.i4 (Int32.ofNat pairs.length) ++
            pairs.flatMap fun (key, relative) => Writer.i4 key ++ Writer.i4 relative := by
  refine Reads.congr ((reads_readPadding _ position).bind fun _ => reads_i4.bind fun default =>
    reads_i4.bind fun count => Reads.refuse (b := ())
      ((Reads.times (fun _ => reads_pair) _).bind fun pairs => Reads.pure _)) fun operands y => ?_
  simp only [Spelling.each_eq fun pair : Int32 × Int32 => Writer.i4 pair.1 ++ Writer.i4 pair.2]
  constructor
  · rintro ⟨_, _, rfl, _, ⟨default, _, rfl, _, ⟨count, _, rfl, _,
      ⟨hcount, pairs, _, ⟨hsize, rfl⟩, _, ⟨rfl, rfl⟩, rfl⟩, rfl⟩, rfl⟩, rfl⟩
    obtain ⟨hn, rfl⟩ := exists_count.1 ⟨hcount, hsize⟩
    exact ⟨default, pairs, hn, rfl, by simp⟩
  · rintro ⟨default, pairs, hn, rfl, rfl⟩
    obtain ⟨hcount, hsize⟩ := exists_count.2 ⟨hn, rfl⟩
    exact ⟨(), _, rfl, _, ⟨_, _, rfl, _, ⟨_, _, rfl, _, ⟨hcount, pairs, _, ⟨hsize, rfl⟩, [],
      ⟨rfl, rfl⟩, rfl⟩, rfl⟩, rfl⟩, by simp⟩

/-- Operands that are one value, each of which is admissible and refers to nothing. -/
theorem reads_value {α : Type} {r : Reader α} {spell : α → Bytes} {make : α → Operands}
    {layout : OperandLayout} (hr : r.Reads fun a y => y = spell a)
    (hspelled : ∀ {operands y}, operands.Spelled position layout y →
      ∃ a, operands = make a ∧ y = spell a)
    (hmake : ∀ a, (make a).Spelled position layout (spell a) ∧ (make a).Admissible ∧
      (make a).references layout = []) :
    Reads (do return make (← r)) fun operands y => operands.Spelled position layout y ∧
      operands.Admissible ∧ ∀ r ∈ operands.references layout, r.Resolves pool := by
  refine hr.map.congr fun operands y => ⟨?_, fun ⟨h, _⟩ => hspelled h⟩
  rintro ⟨a, rfl, rfl⟩
  obtain ⟨hspells, hadmissible, hnone⟩ := hmake a
  rw [hnone]
  exact ⟨hspells, hadmissible, nofun⟩

/-- Operands are read as they are spelled, if they are admissible and refer to what they may. -/
theorem reads_readOperands {layout : OperandLayout} (hlayout : layout ≠ .wide) :
    (readOperands pool position layout).Reads fun operands y => operands.Spelled position layout y ∧
      operands.Admissible ∧ ∀ r ∈ operands.references layout, r.Resolves pool := by
  -- One case for each layout: what is read makes a spelling, and each spelling is what is read.
  cases layout with
  | wide => exact absurd rfl hlayout
  | none =>
    refine (Reads.pure _).congr fun operands y => ⟨?_, ?_⟩
    · rintro ⟨rfl, rfl⟩
      exact ⟨.none, trivial, nofun⟩
    · rintro ⟨h, -, -⟩
      cases h
      exact ⟨rfl, rfl⟩
  | byte =>
    refine reads_value pool position reads_i1 (fun h => ?_) fun value => ⟨.byte value, trivial, rfl⟩
    cases h
    exact ⟨_, rfl, rfl⟩
  | short =>
    refine reads_value pool position reads_i2 (fun h => ?_) fun value =>
      ⟨.short value, trivial, rfl⟩
    cases h
    exact ⟨_, rfl, rfl⟩
  | arrayType =>
    refine Reads.congr (reads_u1.bind fun code => Reads.refuse (b := ()) (Reads.pure _))
      fun operands y => ⟨?_, ?_⟩
    · rintro ⟨code, _, rfl, _, ⟨hcode, rfl, rfl⟩, rfl⟩
      exact ⟨by simpa using .arrayType code, by simpa [Operands.Admissible] using hcode, nofun⟩
    · rintro ⟨h, hcode, -⟩
      cases h
      exact ⟨_, _, rfl, [], ⟨by simpa [Operands.Admissible] using hcode, rfl, rfl⟩, by simp⟩
  | narrowConstant kinds =>
    refine Reads.congr (reads_u1.bind fun index => Reads.guard _ fun _ => Reads.pure _)
      fun operands y => ⟨?_, ?_⟩
    · rintro ⟨index, _, rfl, _, ⟨href, rfl, rfl⟩, rfl⟩
      exact ⟨by simpa using .narrowConstant kinds index, trivial,
        by simpa [Operands.references] using href⟩
    · rintro ⟨h, -, href⟩
      cases h
      exact ⟨_, _, rfl, [], ⟨by simpa [Operands.references] using href, rfl, rfl⟩, by simp⟩
  | constant kinds =>
    refine (pool.reads_index kinds).map.congr fun operands y => ⟨?_, ?_⟩
    · rintro ⟨index, rfl, rfl, href⟩
      exact ⟨.constant kinds index, trivial, by simpa [Operands.references] using href⟩
    · rintro ⟨h, -, href⟩
      cases h
      exact ⟨_, rfl, rfl, by simpa [Operands.references] using href⟩
  | «local» =>
    refine reads_value pool position reads_u1 (fun h => ?_) fun index =>
      ⟨.local index, trivial, rfl⟩
    cases h
    exact ⟨_, rfl, rfl⟩
  | increment =>
    refine (reads_u1.bind fun index => reads_i1.bind fun amount => Reads.pure _).congr
      fun operands y => ⟨?_, ?_⟩
    · rintro ⟨index, _, rfl, _, ⟨amount, _, rfl, _, ⟨rfl, rfl⟩, rfl⟩, rfl⟩
      exact ⟨by simpa using .increment index amount, trivial, nofun⟩
    · rintro ⟨h, -, -⟩
      cases h
      exact ⟨_, _, rfl, _, ⟨_, _, rfl, [], ⟨rfl, rfl⟩, rfl⟩, by simp⟩
  | branch =>
    refine reads_value pool position reads_i2 (fun h => ?_) fun relative =>
      ⟨.branch relative, trivial, rfl⟩
    cases h
    exact ⟨_, rfl, rfl⟩
  | branchWide =>
    refine reads_value pool position reads_i4 (fun h => ?_) fun relative =>
      ⟨.branchWide relative, trivial, rfl⟩
    cases h
    exact ⟨_, rfl, rfl⟩
  | tableSwitch =>
    refine (reads_tableSwitch pool position).congr fun operands y => ⟨?_, ?_⟩
    · rintro ⟨default, low, high, offsets, hbounds, hsize, rfl, rfl⟩
      exact ⟨.tableSwitch hsize, hbounds, nofun⟩
    · rintro ⟨h, hbounds, -⟩
      cases h with
      | tableSwitch hsize => exact ⟨_, _, _, _, hbounds, hsize, rfl, rfl⟩
  | lookupSwitch =>
    refine (reads_lookupSwitch pool position).congr fun operands y => ⟨?_, ?_⟩
    · rintro ⟨default, pairs, hsize, rfl, rfl⟩
      exact ⟨.lookupSwitch hsize, trivial, nofun⟩
    · rintro ⟨h, -, -⟩
      cases h with
      | lookupSwitch hsize => exact ⟨_, _, hsize, rfl, rfl⟩
  | invokeInterface =>
    refine Reads.congr ((pool.reads_index _).bind fun index => reads_u1.bind fun count =>
      Reads.refuse (b := ()) ((reads_readReserved _).bind fun _ => Reads.pure _))
        fun operands y => ⟨?_, ?_⟩
    · rintro ⟨index, _, ⟨rfl, href⟩, _, ⟨count, _, rfl, _, ⟨hcount, _, _, rfl, _, ⟨rfl, rfl⟩, rfl⟩,
        rfl⟩, rfl⟩
      exact ⟨by simpa using .invokeInterface index count, hcount,
        by simpa [Operands.references] using href⟩
    · rintro ⟨h, hcount, href⟩
      cases h
      exact ⟨_, _, ⟨rfl, by simpa [Operands.references] using href⟩, _, ⟨_, _, rfl, _,
        ⟨hcount, (), _, rfl, [], ⟨rfl, rfl⟩, rfl⟩, rfl⟩, by simp⟩
  | invokeDynamic =>
    refine Reads.congr ((pool.reads_index _).bind fun index => (reads_readReserved _).bind fun _ =>
      (reads_readReserved _).bind fun _ => Reads.pure _) fun operands y => ⟨?_, ?_⟩
    · rintro ⟨index, _, ⟨rfl, href⟩, _, ⟨_, _, rfl, _, ⟨_, _, rfl, _, ⟨rfl, rfl⟩, rfl⟩, rfl⟩, rfl⟩
      exact ⟨by simpa using .invokeDynamic index,
        trivial, by simpa [Operands.references] using href⟩
    · rintro ⟨h, -, href⟩
      cases h
      exact ⟨_, _, ⟨rfl, by simpa [Operands.references] using href⟩, _, ⟨(), _, rfl, _,
        ⟨(), _, rfl, [], ⟨rfl, rfl⟩, rfl⟩, rfl⟩, by simp⟩
  | multiANewArray =>
    refine Reads.congr ((pool.reads_index _).bind fun index => reads_u1.bind fun dimensions =>
      Reads.refuse (b := ()) (Reads.pure _)) fun operands y => ⟨?_, ?_⟩
    · rintro ⟨index, _, ⟨rfl, href⟩, _, ⟨dimensions, _, rfl, _, ⟨hdimensions, rfl, rfl⟩, rfl⟩, rfl⟩
      exact ⟨by simpa using .multiANewArray index dimensions, hdimensions,
        by simpa [Operands.references] using href⟩
    · rintro ⟨h, hdimensions, href⟩
      cases h
      exact ⟨_, _, ⟨rfl, by simpa [Operands.references] using href⟩, _, ⟨_, _, rfl, [],
        ⟨hdimensions, rfl, rfl⟩, rfl⟩, by simp⟩

variable {pool position}

/-- Only the prefix has the layout of a prefix. -/
theorem layout?_eq_wide {op : UInt8} : Opcode.layout? op = some .wide ↔ op = Opcode.wide := by
  have h : ∀ n : Fin 256, Opcode.layout? (.ofNat n) = some .wide ↔ UInt8.ofNat n = Opcode.wide := by
    decide +kernel
  simpa using h ⟨op.toNat, op.toNat_lt⟩

/-- An instruction starts with its opcode or with the prefix. -/
theorem spelled_cons {i : Instruction} {op : UInt8} {y : Bytes} :
    i.Spelled position (Writer.u1 op ++ y) ↔
      (∃ layout, Opcode.layout? op = some layout ∧ i.opcode = op ∧
        i.operands.Spelled position layout y) ∨
        op = Opcode.wide ∧ ∃ layout z, Opcode.layout? i.opcode = some layout ∧
          i.operands.Widened layout z ∧ y = Writer.u1 i.opcode ++ z := by
  constructor
  · generalize hb : Writer.u1 op ++ y = bytes
    intro h
    cases h with
    | plain hop hy =>
      obtain ⟨rfl, rfl⟩ := List.cons_eq_cons.1 hb
      exact Or.inl ⟨_, hop, rfl, hy⟩
    | wide hop hy =>
      obtain ⟨rfl, rfl⟩ := List.cons_eq_cons.1 hb
      exact Or.inr ⟨rfl, _, _, hop, hy, rfl⟩
  · obtain ⟨offset, op', operands⟩ := i
    rintro (⟨layout, hop, rfl, hy⟩ | ⟨rfl, layout, z, hop, hy, rfl⟩)
    · exact .plain hop hy
    · exact .wide hop hy

/-- The prefix has no operands of its own. -/
theorem not_spelled_wide {operands : Operands} {y : Bytes} : ¬operands.Spelled position .wide y :=
  nofun

variable (pool position)

/-- A wide form is read behind the prefix. -/
theorem reads_readWide : (readWide position).Reads fun i y => i.offset = .ofNat position ∧
    ∃ layout z, Opcode.layout? i.opcode = some layout ∧ i.operands.Widened layout z ∧
      y = Writer.u1 i.opcode ++ z := by
  refine Reads.congr (reads_u1.bind (M := fun op i z => i.offset = .ofNat position ∧ i.opcode = op ∧
    ∃ layout, Opcode.layout? op = some layout ∧ i.operands.Widened layout z) fun op => ?_)
      fun i y => ?_
  · -- Only the layouts of a local and of an increment have a wide form.
    split
    next hop =>
      refine reads_u2.map.congr fun i z => ⟨?_, ?_⟩
      · rintro ⟨index, rfl, rfl⟩
        exact ⟨rfl, rfl, _, hop, .local index⟩
      · obtain ⟨offset, op', operands⟩ := i
        rintro ⟨rfl, rfl, layout, hop', hz⟩
        cases hop.symm.trans hop'
        cases hz
        exact ⟨_, rfl, rfl⟩
    next hop =>
      refine Reads.congr (reads_u2.bind fun index => reads_i2.bind fun amount => Reads.pure _)
        fun i z => ⟨?_, ?_⟩
      · rintro ⟨index, _, rfl, _, ⟨amount, _, rfl, _, ⟨rfl, rfl⟩, rfl⟩, rfl⟩
        exact ⟨rfl, rfl, _, hop, by simpa using .increment index amount⟩
      · obtain ⟨offset, op', operands⟩ := i
        rintro ⟨rfl, rfl, layout, hop', hz⟩
        cases hop.symm.trans hop'
        cases hz
        exact ⟨_, _, rfl, _, ⟨_, _, rfl, [], ⟨rfl, rfl⟩, rfl⟩, by simp⟩
    next hlocal hincrement =>
      refine (Reads.raise _).congr fun i z => ⟨False.elim, ?_⟩
      obtain ⟨offset, op', operands⟩ := i
      rintro ⟨-, -, layout, hop, hz⟩
      cases hz
      · exact hlocal hop
      · exact hincrement hop
  · constructor
    · rintro ⟨op, _, rfl, z, ⟨hoffset, rfl, layout, hop, hz⟩, rfl⟩
      exact ⟨hoffset, layout, z, hop, hz, rfl⟩
    · rintro ⟨hoffset, layout, z, hop, hz, rfl⟩
      exact ⟨_, _, rfl, z, ⟨hoffset, rfl, layout, hop, hz⟩, rfl⟩

/-- An instruction is read as it is spelled, if it is admissible and refers to what it may. -/
theorem reads_read : (read pool position).Reads fun i bytes => i.offset = .ofNat position ∧
    i.Spelled position bytes ∧ i.operands.Admissible ∧ ∀ r ∈ i.references, r.Resolves pool := by
  refine Reads.firstByte (fun i h => h.2.1.ne_nil rfl) fun op => ?_
  simp only [spelled_cons, ← layout?_eq_wide]
  -- The first byte is no opcode, the prefix of a wide form, or an opcode with operands of its own.
  split
  next hop => exact (Reads.raise _).congr fun i y => by simp [hop]
  next hop =>
    refine (reads_readWide position).congr fun i y => ?_
    constructor
    · rintro ⟨hoffset, layout, z, hop', hz, rfl⟩
      refine ⟨hoffset, Or.inr ⟨hop, layout, z, hop', hz, rfl⟩, hz.sound.1, ?_⟩
      simp [Instruction.references, hop', hz.sound.2]
    · rintro ⟨hoffset, ⟨layout, hlayout, -, hy⟩ | ⟨-, h⟩, -, -⟩
      · cases hop.symm.trans hlayout
        exact absurd hy not_spelled_wide
      · exact ⟨hoffset, h⟩
  next layout hwide hop =>
    refine (reads_readOperands pool position hwide).map.congr fun i y => ?_
    constructor
    · rintro ⟨operands, rfl, hy, hadm, hrefs⟩
      refine ⟨rfl, Or.inl ⟨layout, hop, rfl, hy⟩, hadm, ?_⟩
      simpa [Instruction.references, hop] using hrefs
    · obtain ⟨offset, op', operands⟩ := i
      rintro ⟨rfl, ⟨layout', hop', rfl, hy⟩ | ⟨hop', -⟩, hadm, hrefs⟩
      · cases hop.symm.trans hop'
        refine ⟨operands, rfl, hy, hadm, ?_⟩
        simpa [Instruction.references, hop] using hrefs
      · cases hop.symm.trans hop'
        exact absurd rfl hwide

end Instruction

end ClassFormat
