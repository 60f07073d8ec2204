import Mathlib
import ClassFormat.Code.Handler
import ClassFormat.Surroundings
import ClassFormat.Proofs.ConstantPool.Reference
import ClassFormat.Proofs.Instruction.Sequence

/-!
# Code offsets

What has to be at the code offsets that are stored in a class file, and when the checks
against a code map accept them.

* `CodeOffset`: a stored offset, with what has to be there;
* `CodeMap.Admits`, `Surroundings.Admits`: the offset is right, or not verified;
* `CodeMap.isStart_ofInstructions`: a map has the offsets that the instructions record;
* `ExceptionHandler.reads_read`: reading exception handlers.
-/

namespace ClassFormat

/-- A code offset that is stored in a class file. -/
inductive CodeOffset where
  /-- An instruction has to start at the offset. -/
  | start (offset : Int)
  /-- An instruction has to start at the offset, or the code has to end there. -/
  | boundary (offset : Nat)
  deriving DecidableEq

/-- The offsets of a range of code that is given by its start and its length. -/
def CodeOffset.range (start length : UInt16) : List CodeOffset :=
  [.start start.toNat, .boundary (start.toNat + length.toNat)]

namespace CodeMap

variable {map : CodeMap} {role : OffsetRole}

/-- What has to be at the offset is there. -/
def Lies (map : CodeMap) : CodeOffset → Prop
  | .start offset => map.isStart offset = true
  | .boundary offset => offset = map.length ∨ map.isStart offset = true

/-- What has to be at the offset is there, or nobody verifies it. -/
def Admits (map : CodeMap) (o : CodeOffset) : Prop := map.verify = true → map.Lies o

/-- An offset is verified as a start if an instruction starts there. -/
@[simp] theorem requireStart_eq_ok {n : Nat} :
    map.requireStart role n = .ok () ↔ map.Admits (.start n) := by
  simp [requireStart, Admits, Lies]

/-- An offset is verified as an end if it is a boundary of instructions. -/
@[simp] theorem requireEnd_eq_ok {n : Nat} :
    map.requireEnd role n = .ok () ↔ map.Admits (.boundary n) := by
  simp only [requireEnd, Admits, Lies]
  cases map.verify <;> by_cases h : n = map.length <;> simp [h]

/-- A range is verified if it begins at a start and ends at a boundary. -/
@[simp] theorem requireRange_eq_ok {start length : UInt16} :
    map.requireRange role start length = .ok () ↔ ∀ o ∈ CodeOffset.range start length,
      map.Admits o := by
  simp [requireRange, CodeOffset.range]

end CodeMap

namespace Surroundings

variable {s : Surroundings} {check : CodeMap → Except Failure Unit}

/-- What has to be at the offset of the code around is there, or nobody verifies it. -/
def Admits (s : Surroundings) (o : CodeOffset) : Prop := ∀ map, s.code? = some map → map.Admits o

/-- What is verified in code is verified against the map of the code, if there is any. -/
theorem ifCode_eq_ok : s.ifCode check = .ok () ↔ ∀ map, s.code? = some map →
    check map = .ok () := by
  cases h : s.code? <;> simp [ifCode, h]

@[simp] theorem ifCode_requireStart {role : OffsetRole} {n : Nat} :
    (s.ifCode fun code => code.requireStart role n) = .ok () ↔ s.Admits (.start n) := by
  simp [ifCode_eq_ok, Admits]

@[simp] theorem ifCode_requireRange {role : OffsetRole} {start length : UInt16} :
    (s.ifCode fun code => code.requireRange role start length) = .ok () ↔
      ∀ o ∈ CodeOffset.range start length, s.Admits o := by
  simp only [ifCode_eq_ok, CodeMap.requireRange_eq_ok, Admits]
  exact ⟨fun h o ho map hmap => h map hmap o ho, fun h map hmap o ho => h o ho map hmap⟩

end Surroundings

/-! ### Branches -/

/-- The code offsets that an instruction may branch to. -/
def Instruction.offsets (i : Instruction) : List CodeOffset := i.targets.map .start

namespace CodeMap

variable {map : CodeMap} {instructions : List Instruction} {length : Nat} {verify : Bool}

/-- The branches of an instruction are verified if each of them leads to a start. -/
@[simp] theorem requireTargets_eq_ok {i : Instruction} :
    map.requireTargets i = .ok () ↔ ∀ o ∈ i.offsets, map.Admits o := by
  simp only [requireTargets, Instruction.offsets, List.forall_mem_map, Admits, Lies]
  cases map.verify with
  | false => simp
  | true =>
    cases h : i.targets.find? fun target => !map.isStart target with
    | none => simpa using h
    | some target =>
      have := List.find?_some h
      have := List.mem_of_find?_eq_some h
      simp
      exact ⟨target, by simp_all⟩

/-- All branches are verified if those of each instruction are. -/
@[simp] theorem requireAllTargets_eq_ok :
    map.requireAllTargets instructions = .ok () ↔ ∀ i ∈ instructions, ∀ o ∈ i.offsets,
      map.Admits o := by
  simp [requireAllTargets, List.forM_eq_forM]

/-! ### Maps of instructions -/

/-- What is marked are the offsets of the instructions, in addition to what was marked before. -/
theorem getElem?_marked (marks : Array Bool) (n : Nat) :
    (instructions.foldl (fun starts i => starts.setIfInBounds i.offset.toNat true) marks)[n]? =
        some true ↔
      marks[n]? = some true ∨ n < marks.size ∧ ∃ i ∈ instructions, i.offset.toNat = n := by
  -- Marks are only added, so those there were before are generalized.
  induction instructions generalizing marks with
  | nil => simp
  | cons i rest ih =>
    rw [List.foldl_cons, ih]
    by_cases hi : i.offset.toNat = n
    · by_cases hn : n < marks.size <;> simp [hi, hn]
    · simp [hi]

/-- The starts of a map are the offsets of its instructions, as far as these lie within the code. -/
theorem isStart_ofInstructions {n : Nat} :
    (ofInstructions length instructions verify).isStart n = true ↔
      n < length ∧ ∃ i ∈ instructions, i.offset.toNat = n := by
  have h := @getElem?_marked instructions (Array.replicate length false) n
  have hunmarked : (Array.replicate length false)[n]? ≠ some true := by
    simp [Array.getElem?_replicate]
  rw [Array.size_replicate, or_iff_right hunmarked] at h
  rw [← h]
  simp [isStart, ofInstructions, Option.getD_eq_iff]

end CodeMap

/-! ### Exception handlers -/

namespace ExceptionHandler

open Reader

/-- The code offsets of a handler. -/
def offsets (h : ExceptionHandler) : List CodeOffset :=
  [.start h.startPc.toNat, .boundary h.endPc.toNat, .start h.handlerPc.toNat]

/-- The references of a handler. -/
def references (h : ExceptionHandler) : List Reference := [.orZero h.catchType .classref]

/-- The code offsets of a handler are right, and its range is not empty, if that is verified. -/
structure AdmittedBy (map : CodeMap) (h : ExceptionHandler) : Prop where
  offsets : ∀ o ∈ h.offsets, map.Admits o
  nonempty : map.verify = true → h.startPc < h.endPc

/-- A handler is verified if its range and its start are. -/
theorem check_eq_ok {map : CodeMap} {h : ExceptionHandler} :
    h.check map = .ok () ↔ h.AdmittedBy map := by
  have h : h.check map = .ok () ↔
      (map.verify = true → h.startPc < h.endPc) ∧ ∀ o ∈ h.offsets, map.Admits o := by
    cases hv : map.verify <;> simp [check, hv, offsets]
  exact h.trans ⟨fun ⟨h₁, h₂⟩ => ⟨h₂, h₁⟩, fun h => ⟨h.nonempty, h.offsets⟩⟩

/-- Handlers are read as they are written, if what they refer to is there and their offsets are
    verified. -/
theorem inverts_readTable (pool : ConstantPool) (map : CodeMap) :
    (readTable pool map).Inverts writeTable fun handlers =>
      ∀ h ∈ handlers, (∀ r ∈ h.references, r.Resolves pool) ∧ h.AdmittedBy map := by
  refine Inverts.table fun index => Reads.within ?_
  refine Reads.congr (reads_u2.bind fun startPc => reads_u2.bind fun endPc =>
    reads_u2.bind fun handlerPc => (pool.reads_optionalIndex .classref).bind fun catchType =>
      Reads.guard (check map ⟨startPc, endPc, handlerPc, catchType⟩) fun _ => Reads.pure _)
        fun ⟨startPc, endPc, handlerPc, catchType⟩ bytes => ?_
  simp [write, references, check_eq_ok, eq_comm (b := bytes)]
  tauto

end ExceptionHandler

end ClassFormat
