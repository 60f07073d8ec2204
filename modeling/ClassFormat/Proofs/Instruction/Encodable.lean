import Mathlib
import ClassFormat.Proofs.ConstantPool.Describe
import ClassFormat.Proofs.Instruction.Relocation

/-!
# Which instructions can be encoded

Where instructions land follows from their sizes, in which displacements have no say. If some of
them do not land where they record, the branches are written anew, and what is written has to fit
its field. The encoder finds the sizes by writing each instruction as it is, though, so that the
displacements that were recorded have to fit their fields, too, if only to be replaced.

* `Instruction.Suits`, `Instruction.size`, `Instruction.Reaches`: what an instruction has to be
  like, how many bytes it takes, and which displacements its field takes;
* `Instruction.exists_spelled_iff`: the instructions that can be written;
* `Instruction.Relocatable`: instructions the branches of which can be written where they land;
* `Instruction.encode_succeeds_iff`: the instructions that can be encoded, if some of them moved;
* `Instruction.not_encode_of_relocatable`: a jump that is refused for the way it was recorded.
-/

namespace ClassFormat

/-! ### Operands -/

namespace Operands

/-- The operands are those of the layout, and all but the displacements fit into it. -/
def Suits : OperandLayout → Operands → Prop
  | .none, none | .byte, byte _ | .short, short _ | .arrayType, arrayType _ | .constant _,
  constant _
  | .branch, branch _ | .branchWide, branch _ | .invokeInterface, invokeInterface _ _
  | .invokeDynamic, invokeDynamic _ | .multiANewArray, multiANewArray _ _ => True
  | .narrowConstant _, constant index => index.toNat < 256
  | .local, .local index wide => wide = false → index.toNat < 256
  | .increment, increment index amount wide =>
    wide = false → index.toNat < 256 ∧ -128 ≤ amount.toInt ∧ amount.toInt < 128
  | .tableSwitch, tableSwitch _ low high offsets => high.toInt - low.toInt + 1 = offsets.length
  | .lookupSwitch, lookupSwitch _ pairs => pairs.length < 2 ^ 31
  | _, _ => False

/-- How many bytes the operands take at `position`, a `wide` prefix included. -/
def size (position : Nat) : OperandLayout → Operands → Nat
  | .byte, _ | .arrayType, _ | .narrowConstant _, _ => 1
  | .short, _ | .constant _, _ | .branch, _ => 2
  | .multiANewArray, _ => 3
  | .branchWide, _ | .invokeInterface, _ | .invokeDynamic, _ => 4
  | .local, .local _ wide => if wide then 3 else 1
  | .increment, increment _ _ wide => if wide then 5 else 2
  | .tableSwitch, tableSwitch _ _ _ offsets => switchPadding position + 12 + 4 * offsets.length
  | .lookupSwitch, lookupSwitch _ pairs => switchPadding position + 8 + 8 * pairs.length
  | _, _ => 0

end Operands

/-- How far a displacement in the field of a layout can lead. -/
def OperandLayout.reach : OperandLayout → Int
  | .branch => 2 ^ 15
  | _ => 2 ^ 31

/-- The displacements that fit into the field of a layout. -/
def OperandLayout.Reaches (layout : OperandLayout) (n : Int) : Prop :=
  -layout.reach ≤ n ∧ n < layout.reach

namespace OperandLayout

variable {layout : OperandLayout} {n : Int}

instance : DecidablePred layout.Reaches := fun _ => inferInstanceAs (Decidable (_ ∧ _))

/-- No field takes more than a displacement of 32 bits. -/
theorem Reaches.bounds (h : layout.Reaches n) : -2 ^ 31 ≤ n ∧ n < 2 ^ 31 := by
  cases layout <;> simp only [Reaches, reach] at h <;> omega

/-- Fields other than the short one take every displacement. -/
theorem reaches_toInt (hlayout : layout ≠ .branch) (r : Int32) : layout.Reaches r.toInt := by
  have hlow := r.le_toInt
  have hhigh := r.toInt_lt
  cases layout <;> simp_all [Reaches, reach]

end OperandLayout

namespace Operands

variable {position : Nat} {layout : OperandLayout} {operands : Operands} {y : Bytes}

instance : DecidablePred (Suits layout) := fun operands => by
  cases layout <;> cases operands <;> dsimp only [Suits] <;> infer_instance

/-- Operands that can be written suit their layout. -/
theorem Spelled.suits (h : operands.Spelled position layout y) : operands.Suits layout := by
  cases h with
  | narrowConstant kinds index => exact exists_toUInt16_eq.2 ⟨index, rfl⟩
  | «local» index => exact fun _ => exists_toUInt16_eq.2 ⟨index, rfl⟩
  | increment index amount =>
    refine fun _ => ⟨exists_toUInt16_eq.2 ⟨index, rfl⟩, ?_⟩
    exact checkSigned_eq_ok.1 (exists_toInt16_eq.2 ⟨amount, rfl⟩)
  | tableSwitch hsize => exact hsize
  | lookupSwitch hsize => exact hsize
  | _ => trivial

/-- The displacements of operands that can be written fit into their fields. -/
theorem Spelled.reaches (h : operands.Spelled position layout y) :
    ∀ r ∈ operands.displacements, layout.Reaches r.toInt := by
  cases h with
  | branch relative =>
    refine List.forall_mem_singleton.2 ?_
    exact checkSigned_eq_ok.1 (exists_toInt32_eq.2 ⟨relative, rfl⟩)
  | branchWide | tableSwitch | lookupSwitch =>
    exact fun r _ => OperandLayout.reaches_toInt (by simp) r
  | _ => exact nofun

theorem Spelled.length_eq_size (h : operands.Spelled position layout y) :
    y.length = operands.size position layout := by
  cases h <;> simp [size] <;> omega

/-- Wide operands suit their layout, and there are no displacements among them. -/
theorem Widened.suits (h : operands.Widened layout y) :
    operands.Suits layout ∧ operands.displacements = [] := by
  cases h <;> exact ⟨nofun, rfl⟩

theorem Widened.length_eq_size (h : operands.Widened layout y) :
    y.length + 1 = operands.size position layout := by
  cases h <;> simp [size]

/-- Operands that suit a layout can be written in it if their displacements fit. -/
theorem Suits.exists_spelled (h : operands.Suits layout)
    (hreaches : ∀ r ∈ operands.displacements, layout.Reaches r.toInt) (position : Nat) :
    ∃ y, operands.Spelled position layout y ∨ operands.Widened layout y := by
  -- Of all pairs of a layout and operands, those that do not go together are no case.
  cases layout <;> cases operands <;> try exact absurd h id
  case none.none => exact ⟨_, .inl .none⟩
  case byte.byte value => exact ⟨_, .inl (.byte value)⟩
  case short.short value => exact ⟨_, .inl (.short value)⟩
  case arrayType.arrayType code => exact ⟨_, .inl (.arrayType code)⟩
  case narrowConstant.constant kinds index =>
    obtain ⟨b, rfl⟩ := exists_toUInt16_eq.1 h
    exact ⟨_, .inl (.narrowConstant kinds b)⟩
  case constant.constant kinds index => exact ⟨_, .inl (.constant kinds index)⟩
  case local.local index wide =>
    cases wide with
    | true => exact ⟨_, .inr (.local index)⟩
    | false =>
      obtain ⟨b, rfl⟩ := exists_toUInt16_eq.1 (h rfl)
      exact ⟨_, .inl (.local b)⟩
  case increment.increment index amount wide =>
    cases wide with
    | true => exact ⟨_, .inr (.increment index amount)⟩
    | false =>
      obtain ⟨hindex, hamount⟩ := h rfl
      obtain ⟨b, rfl⟩ := exists_toUInt16_eq.1 hindex
      obtain ⟨a, rfl⟩ := exists_toInt16_eq.1 (checkSigned_eq_ok.2 hamount)
      exact ⟨_, .inl (.increment b a)⟩
  case branch.branch relative =>
    obtain ⟨r, rfl⟩ :=
      exists_toInt32_eq.1 (checkSigned_eq_ok.2 (hreaches relative List.mem_cons_self))
    exact ⟨_, .inl (.branch r)⟩
  case branchWide.branch relative => exact ⟨_, .inl (.branchWide relative)⟩
  case tableSwitch.tableSwitch => exact ⟨_, .inl (.tableSwitch h)⟩
  case lookupSwitch.lookupSwitch => exact ⟨_, .inl (.lookupSwitch h)⟩
  case invokeInterface.invokeInterface index count => exact ⟨_, .inl (.invokeInterface index count)⟩
  case invokeDynamic.invokeDynamic index => exact ⟨_, .inl (.invokeDynamic index)⟩
  case multiANewArray.multiANewArray index dimensions =>
    exact ⟨_, .inl (.multiANewArray index dimensions)⟩

/-- Whether operands suit a layout does not depend on displacements. -/
theorem suits_settled : operands.settled.Suits layout ↔ operands.Suits layout := by
  cases operands <;> cases layout <;> simp [settled, Suits]

/-- Displacements can be replaced if each of them can. -/
theorem succeeds_mapDisplacements {f : Int32 → Except Failure Int32}
    (h : ∀ r ∈ operands.displacements, Succeeds (f r)) :
    Succeeds (operands.mapDisplacements f) := by
  cases operands with
  | branch relative => exact (h relative List.mem_cons_self).map
  | tableSwitch default low high offsets =>
    obtain ⟨hdefault, hoffsets⟩ := List.forall_mem_cons.1 h
    exact hdefault.bind fun _ => (Succeeds.mapM hoffsets).map
  | lookupSwitch default pairs =>
    obtain ⟨hdefault, hpairs⟩ := List.forall_mem_cons.1 h
    exact hdefault.bind fun _ => (Succeeds.mapM fun pair hpair =>
      (List.forall_mem_map.1 hpairs pair hpair).map).map
  | _ => exact .ok _

end Operands

namespace Instruction

variable {position : Nat} {i j : Instruction} {x : Bytes} {placed : List Placed}
  {instructions : List Instruction} {found : Positions}

/-! ### Instructions -/

/-- The opcode is known, and the operands suit its layout. -/
def Suits (i : Instruction) : Prop := ∃ layout ∈ Opcode.layout? i.opcode, i.operands.Suits layout

/-- How many bytes the instruction takes at `position`. -/
def size (position : Nat) (i : Instruction) : Nat :=
  match Opcode.layout? i.opcode with
  | some layout => 1 + i.operands.size position layout
  | none => 0

/-- The displacements that fit into the field of the instruction. -/
def Reaches (i : Instruction) (n : Int) : Prop :=
  ∀ layout ∈ Opcode.layout? i.opcode, layout.Reaches n

/-- The displacements that the instruction records fit into its field. -/
def FitsAsRecorded (i : Instruction) : Prop := ∀ r ∈ i.operands.displacements, i.Reaches r.toInt

instance : DecidablePred Suits :=
  fun i => inferInstanceAs (Decidable (∃ layout ∈ Opcode.layout? i.opcode, _))

instance (i : Instruction) : DecidablePred i.Reaches := fun n =>
  inferInstanceAs (Decidable (∀ layout ∈ Opcode.layout? i.opcode, layout.Reaches n))

-- Not found by inference, which would try all displacements that there are.
instance : DecidablePred FitsAsRecorded := fun i =>
  List.decidableBAll (fun r : Int32 => i.Reaches r.toInt) i.operands.displacements

/-- An instruction takes as many bytes as it is said to. -/
theorem Spelled.length_eq_size (h : i.Spelled position x) : x.length = i.size position := by
  cases h with
  | plain hop hy => simp [size, hop, hy.length_eq_size]
  | wide hop hy =>
    have := @hy.length_eq_size position
    simp [size, hop]
    omega

/-- The instructions that can be written at a position. -/
theorem exists_spelled_iff :
    (∃ x, i.Spelled position x) ↔ i.Suits ∧ i.FitsAsRecorded := by
  constructor
  · rintro ⟨x, hx⟩
    cases hx with
    | plain hop hy =>
      refine ⟨⟨_, hop, hy.suits⟩, fun r hr layout hlayout => ?_⟩
      cases hop.symm.trans hlayout
      exact hy.reaches r hr
    | wide hop hy =>
      obtain ⟨hsuits, hnone⟩ := hy.suits
      exact ⟨⟨_, hop, hsuits⟩, fun r hr => by simp [hnone] at hr⟩
  · rintro ⟨⟨layout, hop, hsuits⟩, hreaches⟩
    obtain ⟨y, hy | hy⟩ := hsuits.exists_spelled (fun r hr => hreaches r hr layout hop) position
    · exact ⟨_, .plain hop hy⟩
    · exact ⟨_, .wide hop hy⟩

/-- An instruction that differs in displacements only suits its layout as well. -/
theorem Suits.congr (h : i.Suits) (hop : j.opcode = i.opcode)
    (hsettled : j.operands.settled = i.operands.settled) : j.Suits := by
  obtain ⟨layout, hlayout, hsuits⟩ := h
  refine ⟨layout, hop ▸ hlayout, ?_⟩
  rwa [← Operands.suits_settled, hsettled, Operands.suits_settled]

/-! ### Where instructions land -/

/-- Instructions with the positions where they land, the first one at `position`. -/
def landings (position : Nat) : List Instruction → List (Instruction × Nat)
  | [] => []
  | i :: rest => (i, position) :: landings (position + i.size position) rest

/-- Instructions land where they are placed. -/
theorem Consecutive.landings_eq (h : Consecutive position placed) :
    landings position (placed.map Placed.instruction) = placed.map fun p =>
      (p.instruction, p.position) := by
  induction placed generalizing position with
  | nil => rfl
  | cons p rest ih =>
    obtain ⟨rfl, hp, hrest⟩ := h
    rw [hp.length_eq_size] at hrest
    rw [List.map_cons, landings, ih hrest, List.map_cons]

/-- Instructions that can be written anywhere can be placed one behind the other. -/
theorem exists_consecutive (h : ∀ i ∈ instructions, ∀ position, ∃ x, i.Spelled position x)
    (position : Nat) :
    ∃ placed, placed.map Placed.instruction = instructions ∧ Consecutive position placed := by
  induction instructions generalizing position with
  | nil => exact ⟨[], rfl, trivial⟩
  | cons i rest ih =>
    obtain ⟨hi, hrest⟩ := List.forall_mem_cons.1 h
    obtain ⟨x, hx⟩ := hi position
    obtain ⟨placed, rfl, hchain⟩ := ih hrest (position + x.length)
    exact ⟨⟨i, position, x⟩ :: placed, rfl, rfl, hx, hchain⟩

/-- The instructions that can be laid out as they are. -/
theorem exists_layOut_iff : (∃ placed, layOut instructions = .ok placed) ↔
    ∀ i ∈ instructions, i.Suits ∧ i.FitsAsRecorded := by
  simp only [layOut_eq_ok]
  constructor
  · rintro ⟨placed, rfl, hchain⟩
    exact List.forall_mem_map.2 fun p hp => exists_spelled_iff.1 ⟨_, hchain.spelled p hp⟩
  · exact fun h => exists_consecutive (fun i hi position => exists_spelled_iff.2 (h i hi)) 0

/-! ### Branches that are written anew -/

/-- A branch has a new target if exactly one instruction records the old one. -/
theorem newTarget_eq_ok {target : Int} {n : Nat} : newTarget (positions placed) i target = .ok n ↔
    ∃ p, placed.filter (fun p => (p.instruction.offset.toNat : Int) = target) = [p] ∧
      p.position = n := by
  have hfound : (if target < 0 then [] else (positions placed).getD target.toNat []) =
      (placed.filter fun p => (p.instruction.offset.toNat : Int) = target).map Placed.position := by
    rw [getD_positions]
    split
    next hneg =>
      refine (List.map_eq_nil_iff.2 (List.filter_eq_nil_iff.2 fun p _ => ?_)).symm
      rw [decide_eq_true_eq]
      omega
    next hpos =>
      congr 2
      funext p
      congr 1
      rw [eq_iff_iff]
      omega
  rw [newTarget, hfound]
  generalize placed.filter (fun p => (p.instruction.offset.toNat : Int) = target) = matching
  rcases matching with _ | ⟨p, _ | ⟨q, rest⟩⟩
  · simp
  · simp
  · simp

/-- A displacement to a target that is found succeeds if it fits into 32 bits. -/
theorem succeeds_newDisplacement {r : Int32} {n : Nat}
    (htarget : newTarget found i (i.offset.toNat + r.toInt) = .ok n)
    (hfits : -2 ^ 31 ≤ (n : Int) - position ∧ (n : Int) - position < 2 ^ 31) :
    Succeeds (newDisplacement found i position r) := by
  refine Succeeds.bind_of_eq htarget (Succeeds.bind_of_eq (a := ()) ?_ (.ok _))
  exact inside_eq_ok.2 (checkSigned_eq_ok.2 hfits)

/-- An instruction is relocated if all of its displacements are. -/
theorem succeeds_relocate
    (h : ∀ r ∈ i.operands.displacements, Succeeds (newDisplacement found i position r))
    (hposition : position < 2 ^ 32) : Succeeds (relocate found i position) := by
  obtain ⟨operands, hoperands⟩ := Operands.succeeds_mapDisplacements h
  exact ⟨⟨.ofNat position, i.opcode, operands⟩, by
    simpa [relocate, hoperands, UInt32.size] using hposition⟩

/-- What a relocated instruction records is how far it is from `position` to the new targets. -/
theorem fitsAsRecorded_iff (hj : relocate found i position = .ok j) : j.FitsAsRecorded ↔
    ∀ t ∈ i.targets, ∃ n, newTarget found i t = .ok n ∧ i.Reaches (n - position) := by
  obtain ⟨-, hop, -, hdisplacements⟩ := relocate_spec hj
  simp only [FitsAsRecorded, Reaches, hop, targets, List.forall_mem_map]
  generalize i.operands.displacements = old, j.operands.displacements = new at hdisplacements ⊢
  induction hdisplacements with
  | nil => simp
  | cons hnew _ ih =>
    obtain ⟨n, htarget, hposition⟩ := newDisplacement_spec hnew
    rw [List.forall_mem_cons, List.forall_mem_cons, ih, htarget, eq_sub_of_add_eq' hposition]
    simp

/-- An instruction can be written anew at `position` if its branches reach their new targets from
    there. -/
theorem succeeds_rewrite_iff (hsuits : i.Suits) :
    Succeeds (relocate found i position >>= write position) ↔
      (∀ t ∈ i.targets, ∃ n, newTarget found i t = .ok n ∧ i.Reaches (n - position)) ∧
      position < 2 ^ 32 := by
  constructor
  · rintro ⟨x, hx⟩
    obtain ⟨j, hj, hx⟩ := bind_eq_ok.1 hx
    obtain ⟨hoffset, -⟩ := relocate_spec hj
    obtain ⟨-, hfits⟩ := exists_spelled_iff.1 ⟨x, write_eq_ok.1 hx⟩
    exact ⟨(fitsAsRecorded_iff hj).1 hfits, hoffset ▸ j.offset.toNat_lt⟩
  · rintro ⟨htargets, hposition⟩
    obtain ⟨layout, hlayout, -⟩ := id hsuits
    have hnew (r) (hr : r ∈ i.operands.displacements) :
        Succeeds (newDisplacement found i position r) := by
      obtain ⟨n, htarget, hreaches⟩ := htargets _ (List.mem_map_of_mem hr)
      exact succeeds_newDisplacement htarget (hreaches layout hlayout).bounds
    obtain ⟨j, hj⟩ := succeeds_relocate hnew hposition
    obtain ⟨-, hop, hsettled, -⟩ := relocate_spec hj
    obtain ⟨x, hx⟩ := exists_spelled_iff.2 ⟨hsuits.congr hop hsettled,
      (fitsAsRecorded_iff hj).2 htargets⟩
    exact Succeeds.bind_of_eq hj ⟨x, hx.write_eq⟩

/-! ### Lists of instructions -/

/-- Some instruction does not land where it records. -/
def Moved (instructions : List Instruction) : Prop :=
  ∃ l ∈ landings 0 instructions, l.1.offset.toNat ≠ l.2

/-- The operands can be written, and each branch can where it lands. -/
structure Relocatable (instructions : List Instruction) : Prop where
  suits : ∀ i ∈ instructions, i.Suits
  /-- Exactly one instruction records the offset that a branch leads to. -/
  targets : ∀ i ∈ instructions, ∀ t ∈ i.targets,
    instructions.countP (fun j => (j.offset.toNat : Int) = t) = 1
  /-- The displacement from where a branch lands to where that instruction lands fits into its
      field. -/
  reaches : ∀ l ∈ landings 0 instructions, ∀ t ∈ l.1.targets, ∀ m ∈ landings 0 instructions,
    (m.1.offset.toNat : Int) = t → l.1.Reaches (m.2 - l.2)

instance : Decidable (Moved instructions) :=
  inferInstanceAs (Decidable (∃ l ∈ landings 0 instructions, _))

instance : Decidable (Relocatable instructions) :=
  decidable_of_iff (_ ∧ _ ∧ _) ⟨fun ⟨hsuits, htargets, hreaches⟩ => ⟨hsuits, htargets, hreaches⟩,
    fun h => ⟨h.suits, h.targets, h.reaches⟩⟩

/-- In instructions that are placed, branches are relocatable if the encoder finds their targets,
    and reaches them. -/
theorem Consecutive.relocatable_iff (h : Consecutive 0 placed) :
    Relocatable (placed.map Placed.instruction) ↔
      ∀ p ∈ placed, ∀ t ∈ p.instruction.targets, ∃ n,
        newTarget (positions placed) p.instruction t = .ok n ∧
          p.instruction.Reaches (n - p.position) := by
  have hcount (t : Int) :
      (placed.map Placed.instruction).countP (fun j => (j.offset.toNat : Int) = t) =
        (placed.filter fun p => (p.instruction.offset.toNat : Int) = t).length := by
    rw [List.countP_map, List.countP_eq_length_filter]
    rfl
  have hlandings := h.landings_eq
  constructor
  · rintro ⟨-, htargets, hreaches⟩ p hp t ht
    have hone := htargets _ (List.mem_map_of_mem hp) t ht
    rw [hcount] at hone
    obtain ⟨q, hq⟩ := List.length_eq_one_iff.1 hone
    obtain ⟨hmem, hoffset⟩ := List.mem_filter.1 (hq ▸ List.mem_singleton_self q)
    refine ⟨q.position, newTarget_eq_ok.2 ⟨q, hq, rfl⟩, ?_⟩
    rw [hlandings] at hreaches
    exact hreaches _ (List.mem_map_of_mem hp) t ht _ (List.mem_map_of_mem hmem)
      (by simpa using hoffset)
  · intro hall
    refine ⟨List.forall_mem_map.2 fun p hp => (exists_spelled_iff.1 ⟨_, h.spelled p hp⟩).1,
      List.forall_mem_map.2 fun p hp t ht => ?_, ?_⟩
    · obtain ⟨n, htarget, -⟩ := hall p hp t ht
      obtain ⟨q, hq, -⟩ := newTarget_eq_ok.1 htarget
      rw [hcount, hq, List.length_singleton]
    · rw [hlandings]
      refine List.forall_mem_map.2 fun p hp t ht => List.forall_mem_map.2 fun q hq hoffset => ?_
      obtain ⟨n, htarget, hreaches⟩ := hall p hp t ht
      obtain ⟨q', hq', rfl⟩ := newTarget_eq_ok.1 htarget
      -- Only one instruction records the offset.
      have hmem : q ∈ [q'] := hq' ▸ List.mem_filter.2 ⟨hq, by simpa using hoffset⟩
      rwa [List.mem_singleton.1 hmem]

/-- Some instruction moved if one is placed where it does not record. -/
theorem Consecutive.moved_iff (h : Consecutive 0 placed) : Moved (placed.map Placed.instruction) ↔
    ∃ p ∈ placed, p.instruction.offset.toNat ≠ p.position := by
  simp [Moved, h.landings_eq]

/-- Instructions that are laid out can be written anew if they can be relocated. -/
theorem Consecutive.exists_rewritten_iff (h : Consecutive 0 placed) :
    (∃ code, Spelling.each (fun p x =>
      relocate (positions placed) p.instruction p.position >>= write p.position = .ok x)
        placed code) ↔
      Relocatable (placed.map Placed.instruction) ∧ ∀ p ∈ placed, p.position < 2 ^ 32 := by
  rw [Spelling.exists_each_iff, h.relocatable_iff, ← forall₂_and]
  refine forall₂_congr fun p hp => ?_
  exact succeeds_rewrite_iff (exists_spelled_iff.1 ⟨_, h.spelled p hp⟩).1

/-- Instructions, some of which do not land where they record, can be encoded exactly if they can be
    relocated, the displacements that they record fit into their fields, and the positions where
    they land fit into theirs. -/
theorem encode_succeeds_iff (hmoved : Moved instructions) :
    (∃ code, encode instructions = .ok code) ↔
      Relocatable instructions ∧ (∀ i ∈ instructions, i.FitsAsRecorded) ∧
        ∀ l ∈ landings 0 instructions, l.2 < 2 ^ 32 := by
  constructor
  · rintro ⟨code, henc⟩
    obtain ⟨placed, hlaid, hcode⟩ := encode_eq_ok.1 henc
    have hwritten := exists_layOut_iff.1 ⟨placed, hlaid⟩
    obtain ⟨rfl, hchain⟩ := layOut_eq_ok.1 hlaid
    rw [if_pos (hchain.moved_iff.1 hmoved)] at hcode
    obtain ⟨hrelocatable, hpositions⟩ := hchain.exists_rewritten_iff.1 ⟨code, hcode⟩
    refine ⟨hrelocatable, fun i hi => (hwritten i hi).2, ?_⟩
    rw [hchain.landings_eq]
    exact List.forall_mem_map.2 hpositions
  · rintro ⟨hrelocatable, hrecorded, hpositions⟩
    obtain ⟨placed, hlaid⟩ :=
      exists_layOut_iff.2 fun i hi => ⟨hrelocatable.suits i hi, hrecorded i hi⟩
    obtain ⟨rfl, hchain⟩ := layOut_eq_ok.1 hlaid
    rw [hchain.landings_eq, List.forall_mem_map] at hpositions
    obtain ⟨code, hcode⟩ := hchain.exists_rewritten_iff.2 ⟨hrelocatable, hpositions⟩
    refine ⟨code, encode_eq_ok.2 ⟨placed, hlaid, ?_⟩⟩
    rwa [if_pos (hchain.moved_iff.1 hmoved)]

/-- A `goto` over a `tableswitch` to the `return` behind it, which was recorded far away. -/
def distantJump (target : UInt32) : List Instruction :=
  [⟨0, 0xA7, .branch target.toInt32⟩, ⟨9, 0xAA, .tableSwitch (-9) 1 1 [target.toInt32 - 9]⟩,
    ⟨target, 0xB1, .none⟩]

/-- The distance fits into two bytes. -/
theorem encode_succeeds_iff_near :
    Moved (distantJump 30000) ∧ ∃ code, encode (distantJump 30000) = .ok code := by
  have hmoved : Moved (distantJump 30000) := by decide
  exact ⟨hmoved, (encode_succeeds_iff hmoved).2 (by decide)⟩

/-- The distance does not fit into two bytes, though what is to be written in its place does. -/
theorem not_encode_of_relocatable : ¬∀ instructions : List Instruction,
    Moved instructions → Relocatable instructions → ∃ code, encode instructions = .ok code := by
  intro h
  obtain ⟨code, henc⟩ := h (distantJump 40000) (by decide) (by decide)
  obtain ⟨placed, hlaid, -⟩ := encode_eq_ok.1 henc
  have hrecorded := (exists_layOut_iff.1 ⟨placed, hlaid⟩ _ List.mem_cons_self).2
  exact absurd hrecorded (by decide)

end Instruction

end ClassFormat
