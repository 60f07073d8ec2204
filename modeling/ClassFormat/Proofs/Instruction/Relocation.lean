import Mathlib
import ClassFormat.Proofs.Instruction.Sequence
import ClassFormat.Proofs.List

/-!
# Relocation

What an edited list of instructions is encoded to decodes to the same instructions, each at its
new position, with every branch leading to the instruction it led to before.

* `Operands.settled`: operands but for their displacements, which relocation changes and which
  have no say in how many bytes the operands take;
* `Instruction.Consecutive.unique`: the bytes of a code array tell its instructions;
* `Instruction.Relocated`, `Instruction.relocated_decode`: what decoding gives for what a list is
  encoded to.
-/

namespace ClassFormat

open Reader

/-! ### Displacements -/

namespace Operands

/-- The operands with zero for every displacement. -/
def settled : Operands → Operands
  | branch _ => branch 0
  | tableSwitch _ low high offsets => tableSwitch 0 low high (offsets.map fun _ => 0)
  | lookupSwitch _ pairs => lookupSwitch 0 (pairs.map fun pair => (pair.1, 0))
  | operands => operands

/-- Each displacement is replaced by what it is mapped to, and nothing else is touched. -/
theorem mapDisplacements_spec {f : Int32 → Except Failure Int32} {operands operands' : Operands}
    (h : operands.mapDisplacements f = .ok operands') : operands'.settled = operands.settled ∧
      List.Forall₂ (fun r r' => f r = .ok r') operands.displacements operands'.displacements := by
  cases operands with
  | branch relative =>
    obtain ⟨r, hr, rfl⟩ := by simpa [mapDisplacements] using h
    exact ⟨rfl, .cons hr .nil⟩
  | tableSwitch default low high offsets =>
    obtain ⟨d, hd, out, hout, rfl⟩ := by simpa [mapDisplacements] using h
    have hout := forall₂_of_mapM_eq_ok hout
    refine ⟨?_, .cons hd hout⟩
    simp [settled, hout.length_eq]
  | lookupSwitch default pairs =>
    obtain ⟨d, hd, out, hout, rfl⟩ := by simpa [mapDisplacements] using h
    have hpairs := forall₂_of_mapM_eq_ok hout
    have hstep {p q : Int32 × Int32} (h : (do return (p.1, ← f p.2)) = Except.ok q) :
        q.1 = p.1 ∧ f p.2 = .ok q.2 := by
      obtain ⟨r, hr, rfl⟩ := by simpa using h
      exact ⟨rfl, hr⟩
    refine ⟨?_, .cons hd ?_⟩
    · -- No key changes.
      have hkeys : out.map (fun pair => (pair.1, (0 : Int32))) = pairs.map fun pair =>
          (pair.1, 0) := by
        clear hout hd h
        induction hpairs with
        | nil => rfl
        | cons h _ ih => rw [List.map_cons, List.map_cons, (hstep h).1, ih]
      simp only [settled, hkeys]
    · exact List.forall₂_map_left_iff.2 (List.forall₂_map_right_iff.2
        (hpairs.imp fun _ _ h => (hstep h).2))
  | _ =>
    cases h
    exact ⟨rfl, .nil⟩

variable {position : Nat} {layout : OperandLayout} {operands operands' : Operands} {x y s t : Bytes}

/-- Operands refer to the same constants whatever their displacements. -/
theorem references_settled (layout : OperandLayout) (operands : Operands) :
    operands.settled.references layout = operands.references layout := by
  cases operands <;> cases layout <;> rfl

theorem admissible_settled (operands : Operands) :
    operands.settled.Admissible ↔ operands.Admissible := by
  cases operands <;> rfl

/-- Displacements have no say in how many bytes operands take. -/
theorem Spelled.length_eq (h : operands.Spelled position layout x)
    (h' : operands'.Spelled position layout y) (hsettled : operands'.settled = operands.settled) :
    y.length = x.length := by
  cases h <;> cases h' <;> simp [settled] at hsettled <;> simp
  case tableSwitch => omega
  case lookupSwitch =>
    have := congrArg List.length hsettled
    simp only [List.length_map] at this
    omega

/-- The bytes of operands in a layout tell the operands. -/
theorem Spelled.unique (h : operands.Spelled position layout x)
    (h' : operands'.Spelled position layout y) (he : x ++ s = y ++ t) :
    operands = operands' ∧ s = t := by
  cases h <;> cases h'
  case none => exact ⟨rfl, he⟩
  case byte =>
    obtain ⟨rfl, rfl⟩ := reads_i1.unique rfl rfl he
    exact ⟨rfl, rfl⟩
  case short =>
    obtain ⟨rfl, rfl⟩ := reads_i2.unique rfl rfl he
    exact ⟨rfl, rfl⟩
  case arrayType | narrowConstant | «local» =>
    obtain ⟨rfl, rfl⟩ := reads_u1.unique rfl rfl he
    exact ⟨rfl, rfl⟩
  case constant =>
    obtain ⟨rfl, rfl⟩ := reads_u2.unique rfl rfl he
    exact ⟨rfl, rfl⟩
  case increment =>
    simp only [List.append_assoc] at he
    obtain ⟨rfl, he₁⟩ := reads_u1.unique rfl rfl he
    obtain ⟨rfl, rfl⟩ := reads_i1.unique rfl rfl he₁
    exact ⟨rfl, rfl⟩
  case branch =>
    obtain ⟨rfl, rfl⟩ := reads_i2.unique rfl rfl he
    exact ⟨rfl, rfl⟩
  case branchWide =>
    obtain ⟨rfl, rfl⟩ := reads_i4.unique rfl rfl he
    exact ⟨rfl, rfl⟩
  case tableSwitch hsize _ _ _ _ hsize' =>
    simp only [List.append_assoc] at he
    obtain ⟨rfl, he₁⟩ := reads_i4.unique rfl rfl (List.append_cancel_left he)
    obtain ⟨rfl, he₂⟩ := reads_i4.unique rfl rfl he₁
    obtain ⟨rfl, he₃⟩ := reads_i4.unique rfl rfl he₂
    obtain ⟨rfl, rfl⟩ := reads_i4.flatMap_unique (by omega) he₃
    exact ⟨rfl, rfl⟩
  case lookupSwitch hsize _ _ hsize' =>
    simp only [List.append_assoc] at he
    obtain ⟨rfl, he₁⟩ := reads_i4.unique rfl rfl (List.append_cancel_left he)
    obtain ⟨hcount, he₂⟩ := reads_i4.unique rfl rfl he₁
    have hcount := congrArg Int32.toInt hcount
    rw [Int32.toInt_ofNat_of_lt hsize, Int32.toInt_ofNat_of_lt hsize'] at hcount
    obtain ⟨rfl, rfl⟩ := Instruction.reads_pair.flatMap_unique (Int.natCast_inj.1 hcount) he₂
    exact ⟨rfl, rfl⟩
  case invokeInterface =>
    simp only [List.append_assoc] at he
    obtain ⟨rfl, he₁⟩ := reads_u2.unique rfl rfl he
    obtain ⟨rfl, he₂⟩ := reads_u1.unique rfl rfl he₁
    exact ⟨rfl, List.append_cancel_left he₂⟩
  case invokeDynamic =>
    simp only [List.append_assoc] at he
    obtain ⟨rfl, he₁⟩ := reads_u2.unique rfl rfl he
    exact ⟨rfl, List.append_cancel_left he₁⟩
  case multiANewArray =>
    simp only [List.append_assoc] at he
    obtain ⟨rfl, he₁⟩ := reads_u2.unique rfl rfl he
    obtain ⟨rfl, rfl⟩ := reads_u1.unique rfl rfl he₁
    exact ⟨rfl, rfl⟩

/-- Wide operands of one layout take the same number of bytes. -/
theorem Widened.length_eq (h : operands.Widened layout x) (h' : operands'.Widened layout y) :
    y.length = x.length := by
  cases h <;> cases h' <;> simp

/-- Wide operands are told from their bytes, whatever comes behind them. -/
theorem Widened.unique (h : operands.Widened layout x) (h' : operands'.Widened layout y)
    (he : x ++ s = y ++ t) : operands = operands' ∧ s = t := by
  cases h <;> cases h'
  case «local» =>
    obtain ⟨rfl, rfl⟩ := reads_u2.unique rfl rfl he
    exact ⟨rfl, rfl⟩
  case increment =>
    simp only [List.append_assoc] at he
    obtain ⟨rfl, he₁⟩ := reads_u2.unique rfl rfl he
    obtain ⟨rfl, rfl⟩ := reads_i2.unique rfl rfl he₁
    exact ⟨rfl, rfl⟩

end Operands

namespace Instruction

variable {position : Nat} {i j : Instruction} {x y s t : Bytes}

/-- An instruction is its offset, its opcode and its operands. -/
theorem ext (hoffset : i.offset = j.offset) (hop : i.opcode = j.opcode)
    (hoperands : i.operands = j.operands) : i = j := by
  obtain ⟨offset, op, operands⟩ := i
  subst hoffset hop hoperands
  rfl

/-- Instructions that differ in displacements only refer to the same constants. -/
theorem references_eq {i j : Instruction} (hop : j.opcode = i.opcode)
    (hsettled : j.operands.settled = i.operands.settled) : j.references = i.references := by
  rw [references, references, hop]
  split
  · rw [← Operands.references_settled, hsettled, Operands.references_settled]
  · rfl

/-- Instructions that differ in displacements only take the same number of bytes. -/
theorem Spelled.length_eq (h : i.Spelled position x) (h' : j.Spelled position y)
    (hop : j.opcode = i.opcode) (hsettled : j.operands.settled = i.operands.settled) :
    y.length = x.length := by
  cases h with
  | plain hi hx =>
    cases h' with
    | plain hj hy =>
      cases hop
      cases hj.symm.trans hi
      rw [List.length_append, List.length_append, hx.length_eq hy hsettled]
    | wide hj hy =>
      cases hop
      cases hj.symm.trans hi
      cases hy <;> cases hx <;> cases hsettled
  | wide hi hx =>
    cases h' with
    | plain hj hy =>
      cases hop
      cases hj.symm.trans hi
      cases hx <;> cases hy <;> cases hsettled
    | wide hj hy =>
      cases hop
      cases hj.symm.trans hi
      simp only [List.length_append, hx.length_eq hy]

/-- The bytes of an instruction tell its opcode and its operands. -/
theorem Spelled.unique (h : i.Spelled position x) (h' : j.Spelled position y)
    (he : x ++ s = y ++ t) : i.opcode = j.opcode ∧ i.operands = j.operands ∧ s = t := by
  cases h with
  | plain hi hx =>
    cases h' with
    | plain hj hy =>
      simp only [List.append_assoc] at he
      obtain ⟨rfl, he₁⟩ := reads_u1.unique rfl rfl he
      cases hi.symm.trans hj
      exact ⟨rfl, hx.unique hy he₁⟩
    -- The prefix of a wide form has no operands of its own, so no plain form starts with it.
    | wide hj hy =>
      simp only [List.append_assoc] at he
      obtain ⟨rfl, he₁⟩ := reads_u1.unique rfl rfl he
      cases hi.symm.trans (layout?_eq_wide.2 rfl)
      exact absurd hx not_spelled_wide
  | wide hi hx =>
    cases h' with
    | plain hj hy =>
      simp only [List.append_assoc] at he
      obtain ⟨rfl, he₁⟩ := reads_u1.unique rfl rfl he
      cases hj.symm.trans (layout?_eq_wide.2 rfl)
      exact absurd hy not_spelled_wide
    | wide hj hy =>
      simp only [List.append_assoc] at he
      obtain ⟨rfl, he₁⟩ := reads_u1.unique rfl rfl (List.append_cancel_left he)
      cases hi.symm.trans hj
      exact ⟨rfl, hx.unique hy he₁⟩

variable {placed placed' : List Placed} {instructions decoded : List Instruction} {code : Bytes}

/-- The bytes of a code array tell its instructions, but for what they record. -/
theorem Consecutive.unique (h : Consecutive position placed) (h' : Consecutive position placed')
    (he : (placed.map Placed.bytes).flatten = (placed'.map Placed.bytes).flatten) :
    List.Forall₂ (fun p q => q.position = p.position ∧
      q.instruction.opcode = p.instruction.opcode ∧ q.instruction.operands = p.instruction.operands)
        placed placed' := by
  induction placed generalizing position placed' with
  | nil =>
    cases placed' with
    | nil => exact .nil
    | cons q rest' =>
      have := h'.2.1.ne_nil
      simp_all
  | cons p rest ih =>
    cases placed' with
    | nil =>
      have := h.2.1.ne_nil
      simp_all
    | cons q rest' =>
      obtain ⟨hp, hx, hrest⟩ := h
      obtain ⟨hq, hy, hrest'⟩ := h'
      rw [List.map_cons, List.map_cons, List.flatten_cons, List.flatten_cons] at he
      obtain ⟨hop, hoperands, hs⟩ := hx.unique hy he
      rw [hs] at he
      rw [← List.append_cancel_right he] at hrest'
      exact .cons ⟨hq.trans hp.symm, hop.symm, hoperands.symm⟩ (ih hrest hrest' hs)

/-! ### Relocation -/

/-- A branch is relocated only if exactly one instruction records the offset that it leads to. -/
theorem newTarget_spec {target : Int} {newPosition : Nat}
    (h : newTarget (positions placed) i target = .ok newPosition) :
    ∃ j, ∃ _ : j < placed.length, placed[j].position = newPosition ∧
      ∀ j' (_ : j' < placed.length), (placed[j'].instruction.offset.toNat : Int) = target ↔
        j' = j := by
  simp only [newTarget, getD_positions] at h
  split at h
  next hfound =>
    cases h
    split at hfound
    · cases hfound
    · obtain ⟨p, hp, rfl⟩ := List.map_eq_singleton_iff.1 hfound
      obtain ⟨j, hj, rfl, honly⟩ := List.exists_getElem_of_filter_eq hp
      refine ⟨j, hj, rfl, fun j' hj' => Iff.trans ?_ (honly j' hj')⟩
      rw [decide_eq_true_eq]
      omega
  · cases h
  · cases h

/-- A new displacement leads from `position` to the new target. -/
theorem newDisplacement_spec {found : Positions} {r r' : Int32}
    (h : newDisplacement found i position r = .ok r') :
    ∃ newPosition, newTarget found i (i.offset.toNat + r.toInt) = .ok newPosition ∧
      position + r'.toInt = newPosition := by
  simp only [newDisplacement, bind_eq_ok, inside_eq_ok, pure_eq_ok] at h
  obtain ⟨newPosition, htarget, _, hfits, rfl⟩ := h
  obtain ⟨hlow, hhigh⟩ := checkSigned_eq_ok.1 hfits
  refine ⟨newPosition, htarget, ?_⟩
  rw [Int32.toInt_ofInt, Int.bmod_eq_of_le (by simpa using hlow) (by simpa using hhigh)]
  omega

/-- A relocated instruction records `position`, and has new displacements. -/
theorem relocate_spec {found : Positions} (h : relocate found i position = .ok j) :
    j.offset.toNat = position ∧ j.opcode = i.opcode ∧ j.operands.settled = i.operands.settled ∧
      List.Forall₂ (fun r r' => newDisplacement found i position r = .ok r')
        i.operands.displacements j.operands.displacements := by
  obtain ⟨operands, hoperands, hposition, rfl⟩ := by simpa [relocate] using h
  exact ⟨UInt32.toNat_ofNat_of_lt' hposition, rfl, Operands.mapDisplacements_spec hoperands⟩

/-- Relocated instructions follow each other where the original ones do. -/
theorem Consecutive.exists_relocated {found : Positions} (h : Consecutive position placed)
    (hwrite : Spelling.each (fun p x =>
      relocate found p.instruction p.position >>= write p.position = .ok x) placed code) :
    ∃ relocated, Consecutive position relocated ∧ code = (relocated.map Placed.bytes).flatten ∧
      List.Forall₂ (fun p q => q.position = p.position ∧
        relocate found p.instruction p.position = .ok q.instruction) placed relocated := by
  induction placed generalizing position code with
  | nil => exact ⟨[], trivial, hwrite, .nil⟩
  | cons p rest ih =>
    obtain ⟨rfl, hx, hrest⟩ := h
    obtain ⟨y, ys, hy, hys, rfl⟩ := hwrite
    obtain ⟨j, hj, hy⟩ := bind_eq_ok.1 hy
    obtain ⟨-, hop, hsettled, -⟩ := relocate_spec hj
    obtain ⟨relocated, hchain, rfl, hall⟩ := ih hrest hys
    have hy := write_eq_ok.1 hy
    refine ⟨⟨j, p.position, y⟩ :: relocated, ⟨rfl, hy, ?_⟩, rfl, .cons ⟨rfl, hj⟩ hall⟩
    rwa [hx.length_eq hy hop hsettled]

/-- Instructions are encoded as they were laid out, unless one of them moved. -/
theorem encode_eq_ok : encode instructions = .ok code ↔ ∃ placed, layOut instructions = .ok placed ∧
    if ∃ p ∈ placed, p.instruction.offset.toNat ≠ p.position then
      Spelling.each (fun p x =>
        relocate (positions placed) p.instruction p.position >>= write p.position = .ok x)
          placed code
    else code = (placed.map Placed.bytes).flatten := by
  simp only [encode, bind_eq_ok]
  refine exists_congr fun placed => and_congr_right fun _ => ?_
  have hmoved : placed.any Placed.moved = true ↔ ∃ p ∈ placed,
      p.instruction.offset.toNat ≠ p.position := by
    simp [Placed.moved]
  simp only [hmoved]
  split
  · rw [Writer.rows_eq_ok]
    simp only [inside_eq_ok, bind_eq_ok]
  · rw [pure_eq_ok, eq_comm]

/-- What the decoded instructions of a code array are, if a sequence of instructions was written
    to it that record their positions. -/
theorem Consecutive.decode_eq {pool : ConstantPool} {rest : Bytes} {c c' : Cursor}
    (h : Consecutive 0 placed) (hoffset : ∀ p ∈ placed, p.instruction.offset.toNat = p.position)
    (hc : c.rest = (placed.map Placed.bytes).flatten ++ rest)
    (hdec : decode pool (placed.map Placed.bytes).flatten.length c = .ok decoded c') :
    decoded = placed.map Placed.instruction := by
  obtain ⟨code, ⟨hlength, placed', rfl, hchain', hdecodable, rfl⟩, past⟩ :=
    (reads_decode pool _).sound hdec
  have he := (List.append_inj (past.rest.symm.trans hc) hlength).1
  have hall := h.unique hchain' he.symm
  clear hlength past he hdec hc hchain' h
  induction hall with
  | nil => rfl
  | @cons p q placed placed' hpq _ ih =>
    obtain ⟨hposition, hop, hoperands⟩ := hpq
    rw [List.forall_mem_cons] at hoffset hdecodable
    have hrecorded : q.instruction.offset = p.instruction.offset := by
      rw [hdecodable.1.offset, hposition, ← hoffset.1, UInt32.ofNat_toNat]
    rw [List.map_cons, List.map_cons, ih hoffset.2 hdecodable.2, ext hrecorded hop hoperands]

/-- What is decoded from the code array of a list of instructions, laid out as `placed`. -/
structure Relocated (instructions : List Instruction) (placed : List Placed)
    (decoded : List Instruction) : Prop where
  length_placed : placed.length = instructions.length
  length_decoded : decoded.length = instructions.length
  /-- Each instruction is the same but for displacements, and records where it was placed. -/
  same : ∀ k (_ : k < instructions.length), decoded[k].opcode = instructions[k].opcode ∧
    decoded[k].operands.settled = instructions[k].operands.settled ∧
      decoded[k].offset.toNat = placed[k].position
  /-- Instructions that record where they are placed are decoded as they are. -/
  unmoved : (∀ k (_ : k < instructions.length), instructions[k].offset.toNat = placed[k].position) →
    decoded = instructions
  /-- Otherwise the target of each branch is recorded by exactly one instruction, and the branch
      leads to the same one afterwards. -/
  moved : (∃ k, ∃ _ : k < instructions.length, instructions[k].offset.toNat ≠ placed[k].position) →
    ∀ k (_ : k < instructions.length),
      ∃ _ : decoded[k].targets.length = instructions[k].targets.length,
      ∀ t (_ : t < instructions[k].targets.length), ∃ j, ∃ _ : j < instructions.length,
        (∀ j' (_ : j' < instructions.length),
          (instructions[j'].offset.toNat : Int) = instructions[k].targets[t] ↔ j' = j) ∧
            decoded[k].targets[t] = decoded[j].offset.toNat

/-- What a list of instructions is encoded to decodes to the same instructions, each at the
    position where it was laid out, with every branch leading to the instruction it led to. -/
theorem relocated_decode {pool : ConstantPool} {rest : Bytes} {c c' : Cursor}
    (henc : encode instructions = .ok code) (hc : c.rest = code ++ rest)
    (hdec : decode pool code.length c = .ok decoded c') :
    ∃ placed, layOut instructions = .ok placed ∧ Relocated instructions placed decoded := by
  obtain ⟨placed, hlaid, hcode⟩ := encode_eq_ok.1 henc
  obtain ⟨rfl, hchain⟩ := layOut_eq_ok.1 hlaid
  refine ⟨placed, hlaid, ?_⟩
  split at hcode
  next hmoved =>
    -- Some instruction moved, so every displacement was computed anew.
    obtain ⟨relocated, hchain', rfl, hall⟩ := hchain.exists_relocated hcode
    have hlength := hall.length_eq
    have hstep (k : Nat) (hk : k < placed.length) : relocated[k].position = placed[k].position ∧
        relocate (positions placed) placed[k].instruction placed[k].position =
            .ok relocated[k].instruction :=
      hall.get hk (hlength ▸ hk)
    have hoffset (q : Placed) (hq : q ∈ relocated) : q.instruction.offset.toNat = q.position := by
      obtain ⟨k, hk, rfl⟩ := List.getElem_of_mem hq
      obtain ⟨hposition, hrelocate⟩ := hstep k (hlength ▸ hk)
      rw [(relocate_spec hrelocate).1, hposition]
    obtain rfl := hchain'.decode_eq hoffset hc hdec
    refine ⟨by simp, by simp [hlength], fun k hk => ?_, fun h => ?_, fun _ k hk => ?_⟩
    · rw [List.length_map] at hk
      obtain ⟨hposition, hop, hsettled, -⟩ := relocate_spec (hstep k hk).2
      simp [hop, hsettled, hposition]
    · obtain ⟨p, hp, hne⟩ := hmoved
      obtain ⟨k, hk, rfl⟩ := List.getElem_of_mem hp
      have hk' := h k (by simpa using hk)
      rw [List.getElem_map] at hk'
      exact absurd hk' hne
    · rw [List.length_map] at hk
      obtain ⟨hposition, -, -, hdisplacements⟩ := relocate_spec (hstep k hk).2
      simp only [List.getElem_map, targets, List.length_map]
      refine ⟨hdisplacements.length_eq.symm, fun t ht => ?_⟩
      obtain ⟨newPosition, htarget, hnew⟩ :=
        newDisplacement_spec (hdisplacements.get ht (hdisplacements.length_eq ▸ ht))
      -- The instruction that the branch led to, wherever it stands now.
      obtain ⟨j, hj, hjposition, honly⟩ := newTarget_spec htarget
      have ht' : t < relocated[k].instruction.operands.displacements.length :=
        hdisplacements.length_eq ▸ ht
      have hleads : (relocated[k].instruction.offset.toNat : Int) +
          relocated[k].instruction.operands.displacements[t].toInt =
            relocated[j].instruction.offset.toNat := by
        rw [hposition, (relocate_spec (hstep j hj).2).1, hjposition]
        exact hnew
      exact ⟨j, hj, honly, hleads⟩
  next hmoved =>
    -- Nothing moved, and the instructions were written as they are.
    subst hcode
    push Not at hmoved
    obtain rfl := hchain.decode_eq hmoved hc hdec
    refine ⟨by simp, rfl, fun k hk => ?_, fun _ => rfl, ?_⟩
    · rw [List.length_map] at hk
      simp [hmoved _ (List.getElem_mem hk)]
    · rintro ⟨k, hk, hne⟩
      rw [List.length_map] at hk
      exact absurd (hmoved _ (List.getElem_mem hk)) (by simpa using hne)

/-- A jump over an instruction that was added behind it leads further than before. -/
theorem relocated_decode_jump : ∃ placed,
    layOut [⟨0, 0xA7, .branch 3⟩, ⟨9, 0x00, .none⟩, ⟨3, 0xB1, .none⟩] = .ok placed ∧
      Relocated [⟨0, 0xA7, .branch 3⟩, ⟨9, 0x00, .none⟩, ⟨3, 0xB1, .none⟩] placed
        [⟨0, 0xA7, .branch 4⟩, ⟨3, 0x00, .none⟩, ⟨4, 0xB1, .none⟩] :=
  @relocated_decode _ _ [0xA7, 0, 4, 0, 0xB1] .empty [] (.start [0xA7, 0, 4, 0, 0xB1]) _ rfl rfl rfl

end Instruction

end ClassFormat
