import Mathlib
import ClassFormat.Proofs.ConstantPool.Editing
import ClassFormat.Proofs.ConstantPool.Joining
import ClassFormat.Proofs.Text.Expansion

/-!
# Constants that were read, pools that are read back

A constant that was read is written as it was, unless it is a text that was stored in a form that is
never written: it is then written with more bytes, or not at all. A pool that was edited, on the
other hand, is read back from what is written for it, empty slots included.

* `Constant.write_of_read`: what is written for a constant that was read;
* `Constant.not_write_of_read`: a text that is not written as it was read;
* `ConstantPool.Reached.read_of_write`: what is read for a pool that edits lead to.
-/

namespace ClassFormat

/-! ### Constants that were read -/

namespace Constant

variable {constant : Constant} {content : Bytes} {index : UInt16} {c c' : Cursor}

/-- The content of a constant that was read is written anew. -/
theorem HasContent.respelled (h : constant.HasContent content) :
    ModifiedUtf8.Respelled content constant.content := by
  cases constant with
  | utf8 t => exact ModifiedUtf8.respelled_of_decode h.2
  | _ =>
    obtain rfl : content = [] := h
    exact ModifiedUtf8.respelled_self nofun

/-- The length of the content of a constant fits into two bytes. -/
theorem HasContent.length_lt (h : constant.HasContent content) : content.length < 65536 := by
  cases constant with
  | utf8 t => exact h.1
  | _ =>
    obtain rfl : content = [] := h
    decide

/-- The constant gets longer by as much as its text does. -/
theorem HasContent.length_storedAs (h : constant.HasContent content) :
    (constant.storedAs constant.content).length =
      (constant.storedAs content).length + ModifiedUtf8.expansion content := by
  have hlength := h.respelled.length
  cases constant with
  | utf8 t =>
    simp only [storedAs, payloadAs, List.length_append, Writer.length_u1, Writer.length_u2, hlength]
    omega
  | _ =>
    obtain rfl : content = [] := h
    rfl

/-- What is written for a constant that was read: the bytes that it was read from, exactly if its
    text was stored without a zero in one byte and without a code point in four. Each of these makes
    the text longer, and nothing is written if it gets too long. -/
theorem write_of_read (h : read index c = .ok constant c') :
    ∃ content, constant.HasContent content ∧ c.Past (constant.storedAs content) c' ∧
    (constant.write = .ok (constant.storedAs content) ↔ ∀ b ∈ content, b ≠ 0 ∧ b < 0xF0) ∧
    ((∃ bytes, constant.write = .ok bytes) ↔
      content.length + ModifiedUtf8.expansion content ≤ 65535) ∧
    ∀ bytes, constant.write = .ok bytes →
      bytes.length = (constant.storedAs content).length + ModifiedUtf8.expansion content := by
  obtain ⟨_, ⟨content, hcontent, rfl⟩, hpast⟩ := (reads_read index).sound h
  have hlength := hcontent.respelled.length
  have hlt := hcontent.length_lt
  refine ⟨content, hcontent, hpast, ?_, ?_, fun bytes hwrite => ?_⟩
  · rw [write_eq_ok, ← ModifiedUtf8.expansion_eq_zero_iff]
    constructor
    · rintro ⟨hsame, -⟩
      have hstored := hcontent.length_storedAs
      rw [← hsame] at hstored
      omega
    · intro hnone
      rw [hcontent.respelled.eq hnone, Fits, hlength, hnone]
      exact ⟨rfl, hlt⟩
  · simp only [write_eq_ok, exists_eq_left, Fits, hlength]
    omega
  · obtain ⟨rfl, -⟩ := write_eq_ok.1 hwrite
    exact hcontent.length_storedAs

/-- A text without the forms that are never written. -/
theorem write_of_read_letter : read 1 (.start [1, 0, 1, 0x41]) = .ok (.ofString "A") ⟨[], 4, []⟩ ∧
    (ofString "A").write = .ok [1, 0, 1, 0x41] := by
  have hread : read 1 (.start [1, 0, 1, 0x41]) = .ok (.ofString "A") ⟨[], 4, []⟩ := by cbv
  obtain ⟨content, -, hpast, hsame, -⟩ := write_of_read hread
  have hstored : [1, 0, 1, 0x41] = (ofString "A").storedAs content :=
    hpast.rest.trans (List.append_nil _)
  rw [← hstored] at hsame
  have hcontent : content = [0x41] := (congrArg (List.drop 3) hstored).symm
  exact ⟨hread, hsame.2 (by simp [hcontent])⟩

/-- A zero that was stored in one byte is written in two. -/
theorem not_write_of_read : ¬∀ (index : UInt16) (t : Text) (c c' : Cursor) (x : Bytes),
    read index c = .ok (.utf8 t) c' → c.Past x c' → (utf8 t).write = .ok x := by
  intro h
  have hread : read 1 (.start [1, 0, 1, 0]) = .ok (.utf8 [0]) ⟨[], 4, []⟩ := by cbv
  have hwrite := h 1 [0] _ _ [1, 0, 1, 0] hread ⟨rfl, rfl⟩
  cases hwrite

end Constant

/-! ### Pools that are read back -/

namespace ConstantPool

variable {pool : ConstantPool} {constants : List Constant}

/-- The texts among the constants are what the pool holds at the indices of texts. -/
theorem WellFormed.forall_texts_iff (h : pool.WellFormed) (hlaid : pool.LaidOut constants)
    {P : Text → Prop} : (∀ constant ∈ constants, ∀ t, constant = .utf8 t → P t) ↔
      ∀ index t, pool.get? index = some (.utf8 t) → P t := by
  rw [← hlaid.entries_eq, List.forall_mem_map]
  constructor
  · exact fun hall index t hget => hall _ (mem_entries_of_get? hget) t rfl
  · exact fun hall entry hentry t ht => hall entry.1 t (ht ▸ h.get?_of_mem_entries hentry)

/-- A pool is the one that is read in its place exactly if its texts are read back. -/
theorem LaidOut.join_eq_iff (h : pool.LaidOut constants) : pool.join = pool ↔
    ∀ constant ∈ constants, ∀ t, constant = .utf8 t →
      ModifiedUtf8.decode (ModifiedUtf8.encode t) = .ok t := by
  have hjoin : pool.join = pool ↔ constants.map Constant.join = constants := by
    constructor
    · intro heq
      rw [← h.join.entries_eq, heq, h.entries_eq]
    · intro heq
      have hlaid := h.join
      rw [heq] at hlaid
      exact hlaid.eq h
  have hmap : constants.map Constant.join = constants ↔ ∀ constant ∈ constants,
      constant.join = constant := by
    simpa using List.map_inj_left (l := constants) (f := Constant.join) (g := id)
  rw [hjoin, hmap]
  refine forall₂_congr fun constant _ => ?_
  cases constant with
  | utf8 t => simp [Constant.join, ModifiedUtf8.decode_encode]
  | _ => simp [Constant.join]

/-- A pool that edits lead to can be written exactly if its texts are short enough. Whatever follows
    the bytes that are written, a pool is read that takes up exactly these, and it is the one that
    was written exactly if the texts of that one are decoded from what they are encoded as. -/
theorem Reached.read_of_write (h : pool.Reached) :
    ((∃ bytes, pool.write = .ok bytes) ↔
      ∀ index t, pool.get? index = some (.utf8 t) → (ModifiedUtf8.encode t).length ≤ 65535) ∧
    ∀ bytes, pool.write = .ok bytes → ∀ (c : Cursor) (further : Bytes), c.rest = bytes ++ further →
      ∃ pool' c', ConstantPool.read c = .ok pool' c' ∧ c'.rest = further ∧
        c'.offset = c.offset + bytes.length ∧
        (pool' = pool ↔ ∀ index t, pool.get? index = some (.utf8 t) →
          ModifiedUtf8.decode (ModifiedUtf8.encode t) = .ok t) := by
  have hwell := h.built.wellFormed
  obtain ⟨constants, hlaid⟩ := hwell.laidOut
  constructor
  · simp only [hlaid.write_eq_ok, exists_and_left, exists_eq, and_true, Constant.fits_iff,
      hwell.forall_texts_iff hlaid]
    exact and_iff_right (Nat.lt_succ_of_le hwell.count_le)
  · intro bytes hwrite c further hc
    obtain ⟨c', hread, hpast⟩ := reads_read.complete ⟨hwell.spelled_join hwrite,
      hwell.resolved_join⟩ hc
    exact ⟨pool.join, c', hread, hpast.rest_eq hc, hpast.offset,
      hlaid.join_eq_iff.trans (hwell.forall_texts_iff hlaid)⟩

/-- A pool in which a constant was replaced by one that refers to a later one, and the last constant
    is wide. -/
def forward : ConstantPool :=
  after (pushInPlace (.long 7)) (after (replaceInPlace 1 (.classref 2))
    (after (pushInPlace (.ofString "B")) (after (pushInPlace (.ofString "A")) empty)))

/-- A class refers to a text behind it, and a byte follows the pool. -/
theorem read_of_write_forward : forward.Reached ∧ ∃ bytes c', forward.write = .ok bytes ∧
    ConstantPool.read (.start (bytes ++ [0xCA])) = .ok forward c' ∧ c'.rest = [0xCA] := by
  have hreached : forward.Reached := (((Reached.new.push _).push _).replace _ _).push _
  have hentries : forward.entries = [(1, .classref 2), (2, .ofString "B"), (3, .long 7)] := by rfl
  have htext (index : UInt16) (t : Text) (hget : forward.get? index = some (.utf8 t)) :
      t = Text.ofString "B" := by
    have hentry := mem_entries_of_get? hget
    rw [hentries] at hentry
    exact And.right (by simpa [Constant.ofString] using hentry)
  obtain ⟨hwrites, hreads⟩ := hreached.read_of_write
  obtain ⟨bytes, hwrite⟩ := hwrites.2 fun index t hget => htext index t hget ▸ by decide
  obtain ⟨pool', c', hread, hrest, -, hsame⟩ :=
    hreads bytes hwrite (.start (bytes ++ [0xCA])) [0xCA] rfl
  obtain rfl := hsame.2 fun index t hget => htext index t hget ▸
    ModifiedUtf8.decode_encode_eq_ok.2 (by decide)
  exact ⟨hreached, bytes, c', hwrite, hread, hrest⟩

end ConstantPool

end ClassFormat
