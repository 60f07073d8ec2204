import Mathlib
import ClassFormat.Annotation.TypeAnnotation
import ClassFormat.Proofs.Annotation.Element
import ClassFormat.Proofs.Code.Offset

/-!
# Type annotations, read back

A type annotation is read back from what is written for it exactly if it may stand where it
is, and what its target information refers to is there.

* `TypeAnnotation.offsets`, `TargetInfo.Bounded`: what the target information refers to;
* `TypePath.inverts_read`, `TargetInfo.inverts_read`: the parts;
* `TypeAnnotation.inverts_readList`: a table of type annotations.
-/

namespace ClassFormat

open Reader

variable (s : Surroundings)

/-! ### Paths -/

namespace TypePath

/-- A step of a type path is read as it is written, the index being 0 but for type arguments. -/
theorem Step.inverts_read : read.Inverts (fun step => .ok step.write) fun _ => True := by
  refine Reads.firstByte (fun step h => ?_) fun kind => Reads.firstByte (fun step h => ?_)
    fun argument => ?_
  · cases h.1
  · cases step <;> cases h.1
  extract_lets plain
  have hplain (step : Step) : (plain step).Reads fun a y => argument = 0 ∧ a = step ∧ y = [] :=
    Reads.congr (Reads.refuse (b := ()) (k := fun _ => pure step) (Reads.pure step)) fun a y => by
      simp
  split
  case h_4 =>
    refine (Reads.pure _).congr fun step y => ?_
    cases step <;> simp [write, code, Writer.u1, eq_comm]
  case h_5 =>
    refine (Reads.raise _).congr fun step y => ?_
    cases step <;> simp [write, code, Writer.u1, eq_comm (b := kind)] <;> tauto
  all_goals
    refine (hplain _).congr fun step y => ?_
    cases step <;> simp [write, code, Writer.u1, eq_comm]

theorem inverts_read : read.Inverts write fun _ => True :=
  (Inverts.shortTable fun _ => Step.inverts_read).congr fun path bytes => by simp [write]

end TypePath

/-! ### Target information -/

/-- The code offsets of a range. -/
def LocalVarRange.offsets (range : LocalVarRange) : List CodeOffset :=
  CodeOffset.range range.startPc range.length

/-- The range of a local variable is read as it is written, if it lies in the code. -/
theorem LocalVarRange.inverts_read (map : CodeMap) :
    (read map).Inverts (fun range => .ok range.write)
      fun range => ∀ o ∈ range.offsets, map.Admits o := by
  refine Reads.congr (reads_u2.bind fun startPc => reads_u2.bind fun length =>
    reads_u2.bind fun index =>
    Reads.guard (map.requireRange .localVarTarget startPc length) fun _ => Reads.pure _)
      fun ⟨startPc, length, index⟩ bytes => ?_
  simp [write, offsets, eq_comm (b := bytes)]
  tauto

/-- The form is for annotations of code only. -/
def TargetForm.InCode : TargetForm → Prop
  | localVar | handler | .offset | typeArgument => True
  | _ => False

namespace TargetInfo

/-- The code offsets of the data. -/
def offsets : TargetInfo → List CodeOffset
  | localVar ranges => ranges.flatMap LocalVarRange.offsets
  | .offset position | typeArgument position _ => [.start position.toNat]
  | _ => []

/-- What the data refers to by a number is there: an interface of the class, or a handler. The
    exceptions that a method declares are counted later. -/
def Bounded (s : Surroundings) : TargetInfo → Prop
  | supertype index => index = superclass ∨ index.toNat < s.interfaces
  | handler index => ∃ map, s.code? = some map ∧ index.toNat < map.handlers
  | throws _ => s.location = .method
  | _ => True

/-- There is a map of the code if there is code around. -/
theorem code_eq_ok {map : CodeMap} : s.code = .ok map ↔ s.code? = some map := by
  cases h : s.code? <;> simp [Surroundings.code, h]

/-- What follows the target type is read as it is written, in the form that this type asks for. -/
theorem inverts_read (form : TargetForm) (hcode : form.InCode → ∃ map, s.code? = some map)
    (hmethod : form = .throws → s.location = .method) :
    (read s form).Inverts write fun info =>
      info.form = form ∧ info.Bounded s ∧ ∀ o ∈ info.offsets, s.Admits o := by
  cases form with
  | empty =>
    refine (Reads.pure _).congr fun info bytes => ?_
    cases info <;> simp [write, TargetInfo.form, Bounded, offsets, eq_comm (b := bytes)]
  | typeParameter =>
    refine Reads.congr (reads_u1.bind fun index => Reads.pure _) fun info bytes => ?_
    cases info <;> simp [write, TargetInfo.form, Bounded, offsets, eq_comm (b := bytes)]
  | supertype =>
    refine Reads.congr (reads_u2.bind fun index => Reads.refuse (b := ()) (Reads.pure _))
      fun info bytes => ?_
    cases info <;> simp [write, TargetInfo.form, Bounded, offsets, eq_comm (b := bytes)]
    tauto
  | typeParameterBound =>
    refine Reads.congr (reads_u1.bind fun parameter => reads_u1.bind fun bound => Reads.pure _)
      fun info bytes => ?_
    cases info <;> simp [write, TargetInfo.form, Bounded, offsets, eq_comm (b := bytes)]
  | formalParameter =>
    refine Reads.congr (reads_u1.bind fun index => Reads.pure _) fun info bytes => ?_
    cases info <;> simp [write, TargetInfo.form, Bounded, offsets, eq_comm (b := bytes)]
  | throws =>
    refine Reads.congr (reads_u2.bind fun index => Reads.pure _) fun info bytes => ?_
    cases info <;> simp [write, TargetInfo.form, Bounded, offsets, hmethod rfl,
      eq_comm (b := bytes)]
  | localVar =>
    obtain ⟨map, hmap⟩ := hcode trivial
    refine Reads.congr (Reads.known ((code_eq_ok s).2 hmap)
      ((Inverts.table fun _ => LocalVarRange.inverts_read map).bind fun ranges => Reads.pure _))
        fun info bytes => ?_
    cases info <;> simp [write, TargetInfo.form, Bounded, offsets, Surroundings.Admits, hmap,
      eq_comm (b := bytes)]
    exact fun _ => ⟨fun h o range hr ho => h range hr o ho, fun h range hr o ho => h o range hr ho⟩
  | handler =>
    obtain ⟨map, hmap⟩ := hcode trivial
    refine Reads.congr (reads_u2.bind fun index => Reads.known ((code_eq_ok s).2 hmap)
      (Reads.refuse (b := ()) (Reads.pure _))) fun info bytes => ?_
    cases info <;> simp [write, TargetInfo.form, Bounded, offsets, hmap,
      eq_comm (b := bytes), and_comm]
  | offset =>
    obtain ⟨map, hmap⟩ := hcode trivial
    refine Reads.congr (reads_u2.bind fun position => Reads.known ((code_eq_ok s).2 hmap)
      (Reads.guard (map.requireStart .offsetTarget position.toNat) fun _ => Reads.pure _))
      fun info bytes => ?_
    cases info <;> simp [write, TargetInfo.form, Bounded, offsets, Surroundings.Admits, hmap,
      eq_comm (b := bytes), and_comm]
  | typeArgument =>
    obtain ⟨map, hmap⟩ := hcode trivial
    refine Reads.congr (reads_u2.bind fun position => reads_u1.bind fun argument =>
      Reads.known ((code_eq_ok s).2 hmap)
        (Reads.guard (map.requireStart .typeArgumentTarget position.toNat) fun _ => Reads.pure _))
          fun info bytes => ?_
    cases info <;> simp [write, TargetInfo.form, Bounded, offsets, Surroundings.Admits, hmap,
      eq_comm (b := bytes), and_comm]

end TargetInfo

/-! ### Type annotations -/

namespace TargetType

/-- The target type that a value stands for is the one that has the value. -/
theorem ofValue?_eq_some {value : UInt8} {t : TargetType} :
    ofValue? value = some t ↔ t.value = value := by
  constructor
  · intro h
    simpa using List.find?_some h
  · rintro rfl
    exact ofValue?_value t

/-- Only annotations of code refer to code. -/
theorem locations_of_inCode {t : TargetType} (h : t.form.InCode) : t.locations = [.code] := by
  cases t <;> first | rfl | exact h.elim

/-- Only annotations of methods refer to declared exceptions. -/
theorem locations_of_throws {t : TargetType} (h : t.form = .throws) : t.locations = [.method] := by
  cases t <;> first | rfl | cases h

end TargetType

namespace TypeAnnotation

/-- The annotation may stand where it is, and what it refers to is there. -/
@[mk_iff]
structure AdmittedBy (s : Surroundings) (a : TypeAnnotation) : Prop where
  location : s.location ∈ a.target.locations
  bounded : a.info.Bounded s
  offsets : ∀ o ∈ a.info.offsets, s.Admits o
  annotation : a.annotation.Admissible s.pool ElementValue.maxDepth

/-- A type annotation is written part by part, if what it targets is given in the form of its target
    type. -/
theorem write_eq_ok {a : TypeAnnotation} {bytes : Bytes} : a.write = .ok bytes ↔
    a.info.form = a.target.form ∧ ∃ x, a.info.write = .ok x ∧ ∃ y, a.path.write = .ok y ∧
      ∃ z, a.annotation.write = .ok z ∧ bytes = Writer.u1 a.target.value ++ (x ++ (y ++ z)) := by
  simp [write, eq_comm (b := bytes)]

/-- What is written for an annotation starts with the byte for its target. -/
theorem value_eq_of_write {a : TypeAnnotation} {value : UInt8} {y : Bytes}
    (h : a.write = .ok (Writer.u1 value ++ y)) : a.target.value = value := by
  obtain ⟨-, _, -, _, -, _, -, h⟩ := write_eq_ok.1 h
  exact (List.cons_eq_cons.1 h).1.symm

/-- A type annotation is read as it is written, if its target may stand at the location and all that
    it refers to is there. -/
theorem inverts_read (hs : s.location = .code → ∃ map, s.code? = some map) :
    (read s).Inverts write fun a => a.AdmittedBy s := by
  refine Reads.offset fun offset => Reads.firstByte (fun a h => ?_) fun value => ?_
  · obtain ⟨-, x, -, y, -, z, -, h⟩ := write_eq_ok.1 h.1
    cases h
  split
  next hvalue =>
    refine (Reads.raise _).congr fun a y => ⟨False.elim, ?_⟩
    rintro ⟨hwrite, -⟩
    obtain rfl := value_eq_of_write hwrite
    cases (TargetType.ofValue?_value a.target).symm.trans hvalue
  next target hvalue =>
    obtain rfl := TargetType.ofValue?_eq_some.1 hvalue
    have hannotation := Annotation.inverts_read s.pool
    -- That the location is right tells that there is code for the forms that look at it.
    refine Reads.congr (Reads.unless (b := ()) fun hlocation =>
      (TargetInfo.inverts_read s target.form
      (fun h => hs (by simpa [TargetType.locations_of_inCode h] using hlocation)) fun h => by
        simpa [TargetType.locations_of_throws h] using hlocation).within.bind fun info =>
          TypePath.inverts_read.bind fun path => hannotation.bind fun a => Reads.pure _)
            fun a y => ⟨?_, ?_⟩
    · rintro ⟨hlocation, info, x, ⟨hx, hform, hbounded, hoffsets⟩, _, ⟨path, y, ⟨hy, -⟩, _,
        ⟨a, z, ⟨hz, ha⟩, _, ⟨rfl, rfl⟩, rfl⟩, rfl⟩, rfl⟩
      exact ⟨write_eq_ok.2 ⟨hform, x, hx, y, hy, z, hz, by simp⟩, not_not.1 hlocation,
        hbounded, hoffsets, ha⟩
    · rintro ⟨hwrite, hlocation, hbounded, hoffsets, ha⟩
      have hvalue' := value_eq_of_write hwrite
      obtain ⟨target', info, path, a⟩ := a
      obtain rfl : target' = target := by
        simpa [hvalue, eq_comm] using TargetType.ofValue?_eq_some.2 hvalue'
      obtain ⟨hform, x, hx, z, hz, w, hw, h⟩ := write_eq_ok.1 hwrite
      obtain rfl := List.append_cancel_left h
      exact ⟨not_not.2 hlocation, info, x, ⟨hx, hform, hbounded, hoffsets⟩, _, ⟨path, z,
        ⟨hz, trivial⟩, _, ⟨a, w, ⟨hw, ha⟩, [], ⟨rfl, rfl⟩, rfl⟩, rfl⟩, by simp⟩

/-- A list of type annotations is read as it is written. -/
theorem inverts_readList (hs : s.location = .code → ∃ map, s.code? = some map) :
    (readList s).Inverts writeList fun annotations => ∀ a ∈ annotations, a.AdmittedBy s :=
  Inverts.table fun _ => (inverts_read s hs).within

end TypeAnnotation

end ClassFormat
