import Mathlib
import ClassFormat.Proofs.Framing
import ClassFormat.Proofs.Instruction.Relocation

/-!
# Code arrays, divided as they were encoded

The reader decodes one instruction after another, each where the one before it ended. On an encoded
code array it starts each instruction where one was written, so none is cut off or takes an operand
for an opcode; it can only refuse what the operands say.

* `Operands.Spelled.frames_read`, `Instruction.Spelled.frames_read`: operands and instructions;
* `Instruction.encode_consecutive`: an encoded code array is a sequence of instructions;
* `Instruction.frames_decode`: code arrays.
-/

namespace ClassFormat

open Reader

variable (pool : ConstantPool) {position : Nat}

/-- What is written for operands is divided by the reader of their layout. -/
theorem Operands.Spelled.frames_read {layout : OperandLayout} {operands : Operands} {y : Bytes}
    (h : operands.Spelled position layout y) :
    (Instruction.readOperands pool position layout).Frames y := by
  cases h with
  | none => exact .pure _
  | byte value => exact .last reads_i1 rfl (.pure _)
  | short value => exact .last reads_i2 rfl (.pure _)
  | arrayType code => exact .last reads_u1 rfl (.refuse (b := ()) id (.pure _))
  | narrowConstant kinds index =>
    exact .last reads_u1 rfl <| .check (pool.judges_require _ _) fun _ => .pure _
  | constant kinds index => exact (pool.frames_index index kinds).map
  | «local» index => exact .last reads_u1 rfl (.pure _)
  | increment index amount => exact .next reads_u1 rfl (.last reads_i1 rfl (.pure _))
  | branch relative => exact .last reads_i2 rfl (.pure _)
  | branchWide relative => exact .last reads_i4 rfl (.pure _)
  | @tableSwitch default low high offsets hsize =>
    have hn : offsets.length = (high.toInt - low.toInt + 1).toNat := by omega
    simp only [List.append_assoc]
    exact .next (a := ()) (Instruction.reads_readPadding _ _) rfl <| .next reads_i4 rfl <|
      .next reads_i4 rfl <| .next reads_i4 rfl <| .refuse (b := ()) id <|
        .last (Reads.times (fun _ => reads_i4) _) ⟨hn, (Spelling.each_eq ..).2 rfl⟩ (.pure _)
  | @lookupSwitch default pairs hsize =>
    obtain ⟨hcount, hn⟩ := Instruction.exists_count.2 ⟨hsize, rfl⟩
    simp only [List.append_assoc]
    exact .next (a := ()) (Instruction.reads_readPadding _ _) rfl <| .next reads_i4 rfl <|
      .next reads_i4 rfl <| .refuse (b := ()) id <|
        .last (Reads.times (fun _ => Instruction.reads_pair) _) ⟨hn, (Spelling.each_eq ..).2 rfl⟩
        (.pure _)
  | invokeInterface index count =>
    simp only [List.append_assoc]
    exact .bind (pool.frames_index _ _) fun _ => .next reads_u1 rfl <| .refuse (b := ()) id <|
      .last (a := ()) (Instruction.reads_readReserved _) rfl (.pure _)
  | invokeDynamic index =>
    have hreserved : ([0, 0] : Bytes) = [0] ++ [0] := rfl
    rw [hreserved]
    exact .bind (pool.frames_index _ _) fun _ => .next (a := ()) (Instruction.reads_readReserved _)
      rfl <| .last (a := ()) (Instruction.reads_readReserved _) rfl (.pure _)
  | multiANewArray index dimensions =>
    exact .bind (pool.frames_index _ _) fun _ => .last reads_u1 rfl <|
      .refuse (b := ()) id (.pure _)

namespace Instruction

/-- A wide form is divided as it was written. -/
theorem frames_readWide {i : Instruction} {layout : OperandLayout} {y : Bytes}
    (hop : Opcode.layout? i.opcode = some layout) (hy : i.operands.Widened layout y) :
    (readWide position).Frames (Writer.u1 i.opcode ++ y) :=
  .of_reads (a := ⟨.ofNat position, i.opcode, i.operands⟩) (reads_readWide position)
    ⟨rfl, layout, y, hop, hy, rfl⟩

/-- An instruction is divided as it was written where it was written. -/
theorem Spelled.frames_read {i : Instruction} {x : Bytes} (h : i.Spelled position x) :
    (read pool position).Frames x := by
  cases h with
  | @plain offset op operands layout y hop hy =>
    refine .next reads_u1 rfl ?_
    rw [hop]
    have hoperands := hy.frames_read pool
    -- The prefix of a wide form has no operands of its own.
    cases layout
    case wide => exact absurd hy not_spelled_wide
    all_goals exact hoperands.map
  | @wide offset op operands layout y hop hy =>
    refine .next reads_u1 rfl ?_
    rw [layout?_eq_wide.2 rfl]
    exact frames_readWide (i := ⟨offset, op, operands⟩) hop hy

/-- An encoded code array is a sequence of instructions. -/
theorem encode_consecutive {instructions : List Instruction} {code : Bytes}
    (h : encode instructions = .ok code) :
    ∃ placed, Consecutive 0 placed ∧ code = (placed.map Placed.bytes).flatten := by
  obtain ⟨placed, hlaid, hcode⟩ := encode_eq_ok.1 h
  have hchain := (layOut_eq_ok.1 hlaid).2
  split at hcode
  · obtain ⟨relocated, hchain', rfl, -⟩ := hchain.exists_relocated hcode
    exact ⟨relocated, hchain', rfl⟩
  · exact ⟨placed, hchain, hcode⟩

/-- Failures for contents are not said to be of an instruction that is cut off. -/
theorem cutOff_of_contents {f : Failure} (h : f.OfContents) : (cutOff position f).OfContents := by
  unfold cutOff
  split
  next htruncated => exact (h.not_truncated _ _ _ htruncated).elim
  next => exact h

/-- Placed instructions are decoded to the last byte, or refused for what they contain. -/
theorem run_decodeFrom {placed : List Placed} {start fuel : Nat} {c : Cursor}
    {done : List Instruction} (hstart : start ≤ c.offset) (hfuel : c.rest.length ≤ fuel)
    (hchain : Consecutive (c.offset - start) placed)
    (hrest : c.rest = (placed.map Placed.bytes).flatten) :
    (∃ instructions c', decodeFrom pool start done fuel c = .ok instructions c' ∧ c'.rest = []) ∨
      ∃ f c', decodeFrom pool start done fuel c = .error f c' ∧ f.OfContents := by
  induction placed generalizing c done fuel with
  | nil => exact Or.inl ⟨_, c, decodeFrom_of_rest_eq_nil hrest, hrest⟩
  | cons p placed ih =>
    obtain ⟨hp, hx, hchain⟩ := hchain
    have hpos := List.length_pos_iff.2 hx.ne_nil
    rw [List.map_cons, List.flatten_cons] at hrest
    have hlength := congrArg List.length hrest
    rw [List.length_append] at hlength
    cases fuel with
    | zero => omega
    | succ fuel =>
      have hne : c.rest ≠ [] := List.ne_nil_of_length_pos (by omega)
      rw [decodeFrom, get_bind, List.isEmpty_eq_false_iff.2 hne]
      simp only [Bool.false_eq_true, if_false, Bind.bind, EStateM.bind]
      rcases ((hx.frames_read pool).mapFailure fun _ => cutOff_of_contents).within.run hrest with
        ⟨i, c₁, hi, past⟩ | ⟨f, c₁, hi, hf⟩
      · have hnext := past.rest_eq hrest
        rw [hi]
        refine ih (past.offset ▸ Nat.le_add_right_of_le hstart) ?_ ?_ hnext
        · rw [hnext]
          omega
        · rwa [past.offset, Nat.sub_add_comm hstart]
      · rw [hi]
        exact Or.inr ⟨f, c₁, rfl, hf⟩

/-- A code array is divided into the instructions that were encoded. -/
theorem frames_decode {instructions : List Instruction} {code : Bytes}
    (h : encode instructions = .ok code) : (decode pool code.length).Frames code := by
  obtain ⟨placed, hchain, hcode⟩ := encode_consecutive h
  have hdecode : Fills (do let start ← Reader.offset; decodeFrom pool start [] code.length)
      code := by
    refine ⟨fun {c} hc => ?_⟩
    rw [offset_bind]
    exact run_decodeFrom pool le_rfl (congrArg List.length hc).le (by simpa using hchain)
      (hc.trans hcode)
  have hdelimited := hdecode.delimited
  rw [← offset_bind_delimited] at hdelimited
  rw [decode, ← bind_assoc]
  exact hdelimited.map

end Instruction

end ClassFormat
