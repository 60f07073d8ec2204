import Mathlib
import ClassFormat.Proofs.Instruction.Relocation

/-!
# Removing instructions

What becomes of the branches of decoded code if some of its instructions are removed.

Whatever is behind a removed instruction moves, as every instruction takes up bytes. So there are
two cases: some instruction moves, and all branches are written anew, each to where the instruction
it led to is now, if that is still there; or only instructions at the end were removed, and what is
left is written as it was. Code that is not verified may have branches that lead nowhere, and is to
be written as it was, too; a list of instructions does not tell which of the two it is.

* `Instruction.Leads`, `Instruction.Dangles`: branches that lead to an instruction, or to a removed
  one;
* `Instruction.Consecutive.isPrefix`: the instructions that stay where they are recorded are the
  first ones of the code;
* `Instruction.decodes_of_encode`: what is encoded is decodable;
* `Instruction.encode_of_sublist`: what is encoded after a removal.
-/

namespace ClassFormat

namespace Instruction

open Reader

variable {pool : ConstantPool} {position : Nat} {placed placed' : List Placed} {p q : Placed}
  {instructions decoded kept : List Instruction} {code out rest : Bytes} {c c' : Cursor}

/-- Every branch leads to an instruction. -/
def Leads (instructions : List Instruction) : Prop :=
  ∀ i ∈ instructions, ∀ t ∈ i.targets, ∃ j ∈ instructions, (j.offset.toNat : Int) = t

/-- Of the decoded instructions some are kept, with a branch to one that is not. -/
def Dangles (decoded kept : List Instruction) : Prop :=
  ∃ i ∈ kept, ∃ t ∈ i.targets, ∃ j ∈ decoded, j ∉ kept ∧ (j.offset.toNat : Int) = t

/-- Branches still lead to an instruction if none of their targets was removed. -/
theorem Leads.of_not_dangles (hleads : Leads decoded) (hsub : kept ⊆ decoded)
    (h : ¬Dangles decoded kept) : Leads kept := by
  intro i hi t ht
  obtain ⟨j, hj, hjt⟩ := hleads i (hsub hi) t ht
  by_contra hnone
  exact h ⟨i, hi, t, ht, j, hj, fun hjkept => hnone ⟨j, hjkept, hjt⟩, hjt⟩

/-! ### Positions -/

/-- No instruction is placed before the first one. -/
theorem Consecutive.le_position (h : Consecutive position placed) :
    ∀ p ∈ placed, position ≤ p.position := by
  induction placed generalizing position with
  | nil => exact nofun
  | cons p rest ih =>
    obtain ⟨rfl, -, hrest⟩ := h
    exact List.forall_mem_cons.2 ⟨le_rfl, fun q hq => (Nat.le_add_right ..).trans (ih hrest q hq)⟩

/-- Each instruction is placed behind the ones before it. -/
theorem Consecutive.pairwise (h : Consecutive position placed) :
    placed.Pairwise fun p q => p.position < q.position := by
  induction placed generalizing position with
  | nil => exact .nil
  | cons p rest ih =>
    obtain ⟨rfl, hp, hrest⟩ := h
    refine .cons (fun q hq => ?_) (ih hrest)
    have hle := hrest.le_position q hq
    have hpos := List.length_pos_iff.2 hp.ne_nil
    omega

/-- No two instructions are placed at one position. -/
theorem Consecutive.eq_of_position_eq (h : Consecutive position placed) (hp : p ∈ placed)
    (hq : q ∈ placed) (he : p.position = q.position) : p = q := by
  have hnodup : (placed.map Placed.position).Nodup :=
    List.pairwise_map.2 (h.pairwise.imp Nat.ne_of_lt)
  exact List.inj_on_of_nodup_map hnodup hp hq he

/-- Instructions that record their positions are told apart by their offsets. -/
theorem Consecutive.offset_injective (h : Consecutive position placed)
    (hrecorded : ∀ p ∈ placed, p.instruction.offset.toNat = p.position) :
    ∀ i ∈ placed.map Placed.instruction,
      ∀ j ∈ placed.map Placed.instruction, i.offset.toNat = j.offset.toNat → i = j := by
  intro i hi j hj he
  obtain ⟨p, hp, rfl⟩ := List.mem_map.1 hi
  obtain ⟨q, hq, rfl⟩ := List.mem_map.1 hj
  rw [hrecorded p hp, hrecorded q hq] at he
  rw [h.eq_of_position_eq hp hq he]

/-- The first ones of consecutive instructions are consecutive. -/
theorem Consecutive.of_append (h : Consecutive position (placed ++ placed')) :
    Consecutive position placed := by
  induction placed generalizing position with
  | nil => trivial
  | cons p rest ih => exact ⟨h.1, h.2.1, ih h.2.2⟩

/-- Of instructions that record their positions, some are laid out again, and each of them lands
    where it was. These are the first ones, for any other would have moved to the front. -/
theorem Consecutive.isPrefix (h : Consecutive position placed)
    (hrecorded : ∀ p ∈ placed, p.instruction.offset.toNat = p.position)
    (h' : Consecutive position placed')
    (hstay : ∀ p ∈ placed', p.instruction.offset.toNat = p.position)
    (hsub : (placed'.map Placed.instruction).Sublist (placed.map Placed.instruction)) :
    placed' <+: placed := by
  induction placed' generalizing position placed with
  | nil => exact List.nil_prefix
  | cons q rest' ih =>
    cases placed with
    | nil => cases hsub
    | cons p rest =>
      obtain ⟨rfl, hp, hrest⟩ := h
      obtain ⟨hposition, hq, hrest'⟩ := h'
      rw [List.forall_mem_cons] at hrecorded hstay
      rw [List.map_cons, List.map_cons, List.sublist_cons_iff] at hsub
      rcases hsub with hlater | ⟨_, he, hsub⟩
      · -- The instruction is one of those behind the first one, so it is not recorded that early.
        have hmem : q.instruction ∈ rest.map Placed.instruction := hlater.subset List.mem_cons_self
        obtain ⟨p', hp', hinstruction⟩ := List.mem_map.1 hmem
        have hlt : p.position < p'.position := by
          have hle := hrest.le_position p' hp'
          have hpos := List.length_pos_iff.2 hp.ne_nil
          omega
        have hback : p'.position = q.position := by
          rw [← hrecorded.2 p' hp', ← hstay.1, hinstruction]
        omega
      · obtain ⟨hinstruction, rfl⟩ := List.cons_eq_cons.1 he
        have hbytes : q.bytes = p.bytes := by
          have := hp.write_eq.symm.trans (hinstruction ▸ hq.write_eq)
          simpa [eq_comm] using this
        have hpq : q = p := by
          obtain ⟨i, n, x⟩ := q
          obtain ⟨i', n', x'⟩ := p
          subst hinstruction hposition hbytes
          rfl
        subst hpq
        exact List.cons_prefix_cons.2 ⟨rfl, ih hrest hrecorded.2 hrest' hstay.2 hsub⟩

/-! ### What is decoded and what is encoded -/

/-- Decoded instructions are laid out as they record. -/
theorem exists_placed_of_decode (hlength : code.length < 2 ^ 32) (hc : c.rest = code ++ rest)
    (hdec : decode pool code.length c = .ok decoded c') :
    ∃ placed, placed.map Placed.instruction = decoded ∧ Consecutive 0 placed ∧
      (∀ p ∈ placed, p.Decodable pool) ∧ (∀ p ∈ placed, p.instruction.offset.toNat = p.position) ∧
      code = (placed.map Placed.bytes).flatten := by
  obtain ⟨bytes, ⟨hn, placed, rfl, hchain, hall, rfl⟩, past⟩ := (reads_decode pool _).sound hdec
  obtain rfl : code = (placed.map Placed.bytes).flatten :=
    (List.append_inj (past.rest.symm.trans hc) hn).1.symm
  refine ⟨placed, rfl, hchain, hall, fun p hp => ?_, rfl⟩
  have hlt := hchain.position_lt hp
  rw [(hall p hp).offset, UInt32.toNat_ofNat_of_lt' (by rw [UInt32.size]; omega)]

/-- Whatever instructions that may be read are encoded to can be decoded. -/
theorem decodes_of_encode
    (hall : ∀ i ∈ kept, i.operands.Admissible ∧ ∀ r ∈ i.references, r.Resolves pool)
    (henc : encode kept = .ok out) (hc : c.rest = out ++ rest) :
    ∃ decoded c', decode pool out.length c = .ok decoded c' := by
  obtain ⟨placed, hlaid, hout⟩ := encode_eq_ok.1 henc
  obtain ⟨rfl, hchain⟩ := layOut_eq_ok.1 hlaid
  rw [List.forall_mem_map] at hall
  -- In both cases the instructions that are written record where they are placed.
  obtain ⟨written, hchain', rfl, hdecodable⟩ : ∃ written, Consecutive 0 written ∧
      out = (written.map Placed.bytes).flatten ∧ ∀ q ∈ written, q.Decodable pool := by
    split at hout
    next =>
      obtain ⟨relocated, hchain', rfl, hall'⟩ := hchain.exists_relocated hout
      refine ⟨relocated, hchain', rfl, fun q hq => ?_⟩
      obtain ⟨k, hk, rfl⟩ := List.getElem_of_mem hq
      have hk' : k < placed.length := hall'.length_eq ▸ hk
      obtain ⟨hposition, hrelocate⟩ := hall'.get hk' hk
      obtain ⟨hoffset, hop, hsettled, -⟩ := relocate_spec hrelocate
      obtain ⟨hadmissible, hreferences⟩ := hall _ (List.getElem_mem hk')
      simp only [List.get_eq_getElem] at hposition hoffset hop hsettled
      refine ⟨?_, ?_, ?_⟩
      · rw [hposition, ← hoffset, UInt32.ofNat_toNat]
      · rwa [← Operands.admissible_settled, hsettled, Operands.admissible_settled]
      · rwa [references_eq hop hsettled]
    next hmoved =>
      push Not at hmoved
      refine ⟨placed, hchain, hout, fun p hp => ?_⟩
      exact ⟨by rw [← hmoved p hp, UInt32.ofNat_toNat], (hall p hp).1, (hall p hp).2⟩
  obtain ⟨c', hdec, -⟩ := (reads_decode pool _).complete ⟨rfl, written, rfl, hchain',
    hdecodable, rfl⟩ hc
  exact ⟨_, c', hdec⟩

/-- If some instruction moved, every branch leads to an instruction, before and after that. -/
theorem Relocated.leads (h : Relocated kept placed decoded)
    (hmoved : ∃ k, ∃ _ : k < kept.length,
      kept[k].offset.toNat ≠ (placed.get ⟨k, h.length_placed ▸ ‹_›⟩).position) :
    Leads kept ∧ Leads decoded := by
  have hfound := h.moved hmoved
  constructor
  · intro i hi t ht
    obtain ⟨k, hk, rfl⟩ := List.getElem_of_mem hi
    obtain ⟨m, hm, rfl⟩ := List.getElem_of_mem ht
    obtain ⟨_, hleads⟩ := hfound k hk
    obtain ⟨j, hj, honly, -⟩ := hleads m hm
    exact ⟨kept[j], List.getElem_mem hj, (honly j hj).2 rfl⟩
  · intro i hi t ht
    obtain ⟨k, hk, rfl⟩ := List.getElem_of_mem hi
    obtain ⟨m, hm, rfl⟩ := List.getElem_of_mem ht
    obtain ⟨htargets, hleads⟩ := hfound k (h.length_decoded ▸ hk)
    obtain ⟨j, hj, -, hnew⟩ := hleads m (htargets ▸ hm)
    exact ⟨decoded.get ⟨j, h.length_decoded ▸ hj⟩, List.get_mem _ _, hnew.symm⟩

/-- Instructions that lead to each other do not lead to others, which have other offsets. -/
theorem Leads.not_dangles (hleads : Leads kept) (hsub : kept ⊆ decoded)
    (hdistinct : ∀ i ∈ decoded, ∀ j ∈ decoded, i.offset.toNat = j.offset.toNat → i = j) :
    ¬Dangles decoded kept := by
  rintro ⟨i, hi, t, ht, j, hj, hgone, hjt⟩
  obtain ⟨j', hj', hjt'⟩ := hleads i hi t ht
  have hsame : j' = j := hdistinct j' (hsub hj') j hj (by omega)
  exact hgone (hsame ▸ hj')

/-- What is encoded for the instructions that are kept decodes to these, which are then the first
    ones, or it was relocated. -/
theorem Consecutive.decodes_kept_or_leads (h : Consecutive 0 placed)
    (hdecodable : ∀ p ∈ placed, p.Decodable pool)
    (hrecorded : ∀ p ∈ placed, p.instruction.offset.toNat = p.position)
    (hkept : kept.Sublist (placed.map Placed.instruction)) (henc : encode kept = .ok out) :
    ∃ decoded c, decode pool out.length (.start out) = .ok decoded c ∧
      (decoded = kept ∧ kept <+: placed.map Placed.instruction ∨ Leads kept ∧ Leads decoded) := by
  have hall : ∀ i ∈ kept, i.operands.Admissible ∧ ∀ r ∈ i.references, r.Resolves pool := by
    intro i hi
    obtain ⟨p, hp, rfl⟩ := List.mem_map.1 (hkept.subset hi)
    exact ⟨(hdecodable p hp).admissible, (hdecodable p hp).references⟩
  have hstart : (Cursor.start out).rest = out ++ [] := (List.append_nil out).symm
  obtain ⟨decoded, c, hdec⟩ := decodes_of_encode hall henc hstart
  obtain ⟨placed', hlaid, hrelocated⟩ := relocated_decode henc hstart hdec
  obtain ⟨rfl, hchain'⟩ := layOut_eq_ok.1 hlaid
  refine ⟨decoded, c, hdec, ?_⟩
  by_cases hstay : ∀ p ∈ placed', p.instruction.offset.toNat = p.position
  · have hprefix : placed' <+: placed := h.isPrefix hrecorded hchain' hstay hkept
    refine Or.inl ⟨hrelocated.unmoved fun k hk => ?_, hprefix.map _⟩
    rw [List.getElem_map]
    exact hstay _ (List.getElem_mem _)
  · push Not at hstay
    obtain ⟨p, hp, hmoved⟩ := hstay
    obtain ⟨k, hk, rfl⟩ := List.getElem_of_mem hp
    refine Or.inr (hrelocated.leads ⟨k, by simpa using hk, ?_⟩)
    rwa [List.getElem_map]

/-- The first ones of the instructions are encoded to the first ones of the bytes. -/
theorem Consecutive.encode_isPrefix (h : Consecutive 0 placed)
    (hrecorded : ∀ p ∈ placed, p.instruction.offset.toNat = p.position)
    (hkept : kept <+: placed.map Placed.instruction) :
    ∃ out, out <+: (placed.map Placed.bytes).flatten ∧ encode kept = .ok out := by
  obtain ⟨removed, he⟩ := hkept
  obtain ⟨before, after, rfl, rfl, -⟩ := List.map_eq_append_iff.1 he.symm
  refine ⟨(before.map Placed.bytes).flatten, ⟨(after.map Placed.bytes).flatten, ?_⟩, ?_⟩
  · rw [List.map_append, List.flatten_append]
  · refine encode_eq_ok.2 ⟨before, layOut_eq_ok.2 ⟨rfl, h.of_append⟩, ?_⟩
    rw [if_neg]
    rintro ⟨p, hp, hmoved⟩
    exact hmoved (hrecorded p (List.mem_append_left _ hp))

/-- Some instructions of a code array in which every branch leads to an instruction are removed.

    * If one of them was in front of an instruction that is kept, a branch to a removed one is an
      error.
    * Whatever is encoded decodes to instructions in which every branch leads to an instruction,
      unless the instructions that are kept are the first ones, with a branch to one behind them.
    * If they are the first ones, they are encoded to the first bytes of the code, as they are. -/
theorem encode_of_sublist (hlength : code.length < 2 ^ 32) (hc : c.rest = code ++ rest)
    (hdec : decode pool code.length c = .ok decoded c') (hleads : Leads decoded)
    (hkept : kept.Sublist decoded) :
    (¬kept <+: decoded → Dangles decoded kept → ∃ f, encode kept = .error f) ∧
    (∀ out, encode kept = .ok out → ¬(kept <+: decoded ∧ Dangles decoded kept) →
      ∃ decoded' d, decode pool out.length (.start out) = .ok decoded' d ∧ Leads decoded') ∧
    (kept <+: decoded → ∃ out, out <+: code ∧ encode kept = .ok out) := by
  obtain ⟨placed, rfl, hchain, hdecodable, hrecorded, rfl⟩ :=
    exists_placed_of_decode hlength hc hdec
  refine ⟨fun hprefix hdangles => ?_, fun out henc hprefix => ?_, hchain.encode_isPrefix hrecorded⟩
  · cases henc : encode kept with
    | error f => exact ⟨f, rfl⟩
    | ok out =>
      obtain ⟨_, _, _, ⟨_, hkeeps⟩ | ⟨hleads', _⟩⟩ :=
        hchain.decodes_kept_or_leads hdecodable hrecorded hkept henc
      · exact absurd hkeeps hprefix
      · exact absurd hdangles (hleads'.not_dangles hkept.subset (hchain.offset_injective hrecorded))
  · obtain ⟨decoded', d, hdec', ⟨rfl, hkeeps⟩ | ⟨_, hleads'⟩⟩ :=
      hchain.decodes_kept_or_leads hdecodable hrecorded hkept henc
    · exact ⟨_, d, hdec', hleads.of_not_dangles hkept.subset fun hdangles =>
        hprefix ⟨hkeeps, hdangles⟩⟩
    · exact ⟨decoded', d, hdec', hleads'⟩

/-- The bytes of `nop`, a `goto` to the second `nop`, that `nop`, and `return`. -/
def jumpCode : Bytes := [0, 0xA7, 0, 3, 0, 0xB1]

/-- Without both `nop`, the `goto` leads nowhere. -/
theorem encode_of_sublist_jump :
    (∃ c, decode .empty 6 (.start jumpCode) =
      .ok [⟨0, 0, .none⟩, ⟨1, 0xA7, .branch 3⟩, ⟨4, 0, .none⟩, ⟨5, 0xB1, .none⟩] c) ∧
    ∃ f, encode [⟨1, 0xA7, .branch 3⟩, ⟨5, 0xB1, .none⟩] = .error f := by
  have hdec : decode .empty 6 (.start jumpCode) = .ok
      [⟨0, 0, .none⟩, ⟨1, 0xA7, .branch 3⟩, ⟨4, 0, .none⟩, ⟨5, 0xB1, .none⟩] ⟨[], 6, []⟩ := rfl
  have hstart : (Cursor.start jumpCode).rest = jumpCode ++ [] := rfl
  refine ⟨⟨_, hdec⟩, (encode_of_sublist (by decide) hstart hdec ?_ ?_).1 ?_ ?_⟩
  · simp [Leads, targets, Operands.displacements]
  · decide
  · decide
  · exact ⟨⟨1, 0xA7, .branch 3⟩, by simp, 4, by decide, ⟨4, 0, .none⟩, by simp, by decide, rfl⟩

/-- A removal from the end is not noticed: what is left of a `goto` to the `return` behind it could
    be the whole of code in which the `goto` leads nowhere. -/
theorem not_encode_of_sublist : ¬∀ (pool : ConstantPool) (code rest : Bytes) (c c' : Cursor)
    (decoded kept : List Instruction), code.length < 2 ^ 32 → c.rest = code ++ rest →
      decode pool code.length c = .ok decoded c' → Leads decoded → kept.Sublist decoded →
        Dangles decoded kept → ∃ f, encode kept = .error f := by
  intro h
  obtain ⟨f, hf⟩ := h .empty [0xA7, 0, 3, 0xB1] [] (.start [0xA7, 0, 3, 0xB1]) ⟨[], 4, []⟩
    [⟨0, 0xA7, .branch 3⟩, ⟨3, 0xB1, .none⟩] [⟨0, 0xA7, .branch 3⟩] (by decide) rfl rfl
    (by simp [Leads, targets, Operands.displacements]) (by decide)
    ⟨⟨0, 0xA7, .branch 3⟩, by simp, 3, by decide, ⟨3, 0xB1, .none⟩, by simp, by decide, rfl⟩
  have hwritten : encode [⟨0, 0xA7, .branch 3⟩] = .ok [0xA7, 0, 3] := rfl
  rw [hwritten] at hf
  cases hf

end Instruction

end ClassFormat
