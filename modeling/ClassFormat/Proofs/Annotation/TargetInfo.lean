import Mathlib
import ClassFormat.Proofs.Annotation.Nesting
import ClassFormat.Proofs.Annotation.TypeAnnotation
import ClassFormat.Proofs.Truncation

/-!
# The length of target information

What locates an annotated type is written, read and measured case by case. The cases agree: as many
bytes are written and read as are measured, and which case there is follows from the target type.

* `TargetType.position`: target types are looked up by their place in a table;
* `TargetInfo.exists_of_read`: what is read is taken from what is written for it;
* `TargetInfo.length_of_write`: how much is written;
* `TypeAnnotation.exists_write_iff`: which type annotations can be written;
* `TypeAnnotation.targetInfo_lengths`: how much is written and read for the target information.
-/

namespace ClassFormat

open Reader

/-! ### Target types in a table -/

/-- The place of a target type in the table of all of them. -/
def TargetType.position : TargetType → Nat
  | classTypeParameter => 0
  | methodTypeParameter => 1
  | classExtends => 2
  | classTypeParameterBound => 3
  | methodTypeParameterBound => 4
  | field => 5
  | methodReturn => 6
  | methodReceiver => 7
  | methodFormalParameter => 8
  | throws => 9
  | localVariable => 10
  | resourceVariable => 11
  | exceptionParameter => 12
  | instanceOf => 13
  | new => 14
  | constructorReference => 15
  | methodReference => 16
  | cast => 17
  | constructorInvocationTypeArgument => 18
  | methodInvocationTypeArgument => 19
  | constructorReferenceTypeArgument => 20
  | methodReferenceTypeArgument => 21

/-- The row at the place of a target type is its own. -/
theorem TargetType.getElem?_position (t : TargetType) :
    (all.map row)[t.position]? = some t.row := by
  cases t <;> rfl

/-! ### Target information that is read -/

namespace TargetInfo

variable {s : Surroundings} {form : TargetForm} {info : TargetInfo} {c c' : Cursor} {x : Bytes}

/-- Data that is about code is read inside of code only. -/
theorem exists_code_of_read (h : read s form c = .ok info c') (hform : form.InCode) :
    ∃ map, s.code? = some map := by
  have hcode {c₁ c₂ : Cursor} {map : CodeMap}
      (h : (liftM s.code : Reader CodeMap) c₁ = .ok map c₂) : ∃ map, s.code? = some map := by
    obtain ⟨_, ⟨hmap, -⟩, -⟩ := (Reads.check s.code).sound h
    exact ⟨map, (code_eq_ok s).1 hmap⟩
  cases form with
  | localVar =>
    obtain ⟨map, _, h, -⟩ := Reader.bind_eq_ok.1 h
    exact hcode h
  | handler | offset =>
    obtain ⟨_, _, -, h⟩ := Reader.bind_eq_ok.1 h
    obtain ⟨map, _, h, -⟩ := Reader.bind_eq_ok.1 h
    exact hcode h
  | typeArgument =>
    obtain ⟨_, _, -, h⟩ := Reader.bind_eq_ok.1 h
    obtain ⟨_, _, -, h⟩ := Reader.bind_eq_ok.1 h
    obtain ⟨map, _, h, -⟩ := Reader.bind_eq_ok.1 h
    exact hcode h
  | _ => exact hform.elim

/-- The data is read in the same way at any location, unless code is missing. -/
theorem read_eq (hcode : form.InCode → ∃ map, s.code? = some map) :
    read s form = read { s with location := .method } form := by
  obtain ⟨pool, options, location, interfaces, code?⟩ := s
  cases form with
  | localVar | handler | offset | typeArgument =>
    obtain ⟨map, rfl⟩ := hcode trivial
    rfl
  | _ => rfl

/-- What is read is of the form that was asked for, and taken from what is written for it. -/
theorem exists_of_read (h : read s form c = .ok info c') :
    info.form = form ∧ ∃ x, info.write = .ok x ∧ c.Past x c' := by
  have hcode : form.InCode → ∃ map, s.code? = some map := exists_code_of_read h
  rw [read_eq hcode] at h
  obtain ⟨x, ⟨hx, hform, -⟩, past⟩ :=
    (inverts_read { s with location := .method } form hcode fun _ => rfl).sound h
  exact ⟨hform, x, hx, past⟩

/-! ### Target information that is written -/

/-- As many bytes are written as the length tells. -/
theorem length_of_write (h : info.write = .ok x) : x.length = info.length := by
  cases info with
  | localVar ranges =>
    obtain ⟨-, y, hy, rfl⟩ := Writer.table_eq_ok.1 h
    obtain rfl :=
      Except.ok.inj ((Writer.rows_eq_ok.2 hy).symm.trans
      (Writer.rows_ok LocalVarRange.write ranges))
    have hrow (range : LocalVarRange) : range.write.length = 6 := by simp [LocalVarRange.write]
    simp [length, hrow, Nat.mul_comm]
  | _ =>
    cases h
    simp [length]

/-- Only ranges of a local variable have to be counted. -/
theorem exists_write_iff : (∃ x, info.write = .ok x) ↔
    ∀ ranges, info = localVar ranges → ranges.length ≤ 65535 := by
  cases info with
  | localVar ranges => simp [write, Writer.exists_table_iff]
  | _ => simp [write]

end TargetInfo

/-- A path can be written if its steps can be counted. -/
theorem TypePath.exists_write_iff {path : TypePath} :
    (∃ x, path.write = .ok x) ↔ path.length ≤ 255 := by
  rw [write]
  constructor
  · rintro ⟨x, hx⟩
    exact Nat.le_of_lt_succ (Writer.shortTable_eq_ok.1 hx).1
  · intro hlength
    exact ⟨_, Writer.shortTable_eq_ok.2 ⟨Nat.lt_succ_of_le hlength, _,
      Writer.rows_eq_ok.1 (Writer.rows_ok ..), rfl⟩⟩

namespace TypeAnnotation

/-- A type annotation can be written if its target information is of the form that its target type
    asks for, and its lists are short enough to be counted. -/
theorem exists_write_iff {a : TypeAnnotation} : (∃ bytes, a.write = .ok bytes) ↔
    a.info.form = a.target.form ∧ (∀ ranges, a.info = .localVar ranges → ranges.length ≤ 65535) ∧
      a.path.length ≤ 255 ∧ ∀ n ∈ a.annotation.counts, n ≤ 65535 := by
  rw [← TargetInfo.exists_write_iff, ← TypePath.exists_write_iff, ← a.annotation.exists_write_iff]
  simp only [write_eq_ok]
  constructor
  · rintro ⟨_, hform, x, hx, y, hy, z, hz, -⟩
    exact ⟨hform, ⟨x, hx⟩, ⟨y, hy⟩, z, hz⟩
  · rintro ⟨hform, ⟨x, hx⟩, ⟨y, hy⟩, z, hz⟩
    exact ⟨_, hform, x, hx, y, hy, z, hz, rfl⟩

/-- What is read has target information of the form that its target type asks for. -/
theorem form_of_read {s : Surroundings} {a : TypeAnnotation} {c c' : Cursor}
    (h : read s c = .ok a c') : a.info.form = a.target.form := by
  rw [read, offset_bind] at h
  obtain ⟨value, c₁, -, h⟩ := Reader.bind_eq_ok.1 h
  rcases htarget : TargetType.ofValue? value with _ | target <;> simp only [htarget] at h
  · cases h
  · split at h
    · obtain ⟨_, _, h, -⟩ := Reader.bind_eq_ok.1 h
      cases h
    · obtain ⟨info, _, hinfo, h⟩ := Reader.bind_eq_ok.1 h
      obtain ⟨path, _, -, h⟩ := Reader.bind_eq_ok.1 h
      obtain ⟨_, _, -, h⟩ := Reader.bind_eq_ok.1 h
      cases h
      exact (TargetInfo.exists_of_read (mapFailure_eq_ok.1 hinfo)).1

/-- The cases of target information agree on how long it is, and the target type tells which one
    there is. -/
theorem targetInfo_lengths :
    (∀ a : TypeAnnotation, (∃ bytes, a.write = .ok bytes) ↔
      a.info.form = a.target.form ∧ (∀ ranges, a.info = .localVar ranges → ranges.length ≤ 65535) ∧
        a.path.length ≤ 255 ∧ ∀ n ∈ a.annotation.counts, n ≤ 65535) ∧
    (∀ (a : TypeAnnotation) (bytes : Bytes), a.write = .ok bytes → ∃ x y z,
      a.info.write = .ok x ∧ x.length = a.info.length ∧ a.path.write = .ok y ∧
        a.annotation.write = .ok z ∧ bytes = Writer.u1 a.target.value ++ (x ++ (y ++ z))) ∧
    (∀ s form c info c', TargetInfo.read s form c = .ok info c' →
      info.form = form ∧ ∃ x, x.length = info.length ∧ c.Past x c') ∧
    (∀ a : TypeAnnotation, a.info.form ≠ a.target.form →
      a.write = .error (.ofFault (.malformed (.targetForm a.target a.info.form)))) ∧
    (∀ s c a c', read s c = .ok a c' → a.info.form = a.target.form) ∧
    ∀ t : TargetType, (TargetType.all.map TargetType.row)[t.position]? = some t.row ∧
      TargetType.ofValue? t.value = some t := by
  refine ⟨fun a => exists_write_iff, ?_, ?_, ?_, ?_, ?_⟩
  · intro a bytes h
    obtain ⟨-, x, hx, y, hy, z, hz, rfl⟩ := write_eq_ok.1 h
    exact ⟨x, y, z, hx, TargetInfo.length_of_write hx, hy, hz, rfl⟩
  · intro s form c info c' h
    obtain ⟨hform, x, hx, past⟩ := TargetInfo.exists_of_read h
    exact ⟨hform, x, TargetInfo.length_of_write hx, past⟩
  · intro a hform
    rw [write, if_pos hform]
    rfl
  · exact fun s c a c' h => form_of_read h
  · exact fun t => ⟨t.getElem?_position, t.ofValue?_value⟩

/-- A type annotation on a local variable, which has a value in one range of code. -/
def ranged : TypeAnnotation := ⟨.localVariable, .localVar [⟨0, 4, 1⟩], [.array], ⟨1, []⟩⟩

/-- Eight bytes tell the range, and are read as such. The target type of a cast asks for something
    else. -/
theorem targetInfo_lengths_ranged :
    (∃ x y z, ranged.info.write = .ok x ∧ x.length = 8 ∧ ranged.path.write = .ok y ∧
      ranged.annotation.write = .ok z ∧
        [0x40, 0, 1, 0, 0, 0, 4, 0, 1, 1, 0, 0, 0, 1, 0, 0] = Writer.u1 0x40 ++ (x ++ (y ++ z))) ∧
    (∃ c x, TargetInfo.read ⟨.empty, ⟨false⟩, .code, 0, some (.ofInstructions 4 [] false)⟩ .localVar
      (.start [0, 1, 0, 0, 0, 4, 0, 1, 7]) = .ok ranged.info c ∧ x.length = 8 ∧
        (Cursor.start [0, 1, 0, 0, 0, 4, 0, 1, 7]).Past x c) ∧
    TypeAnnotation.write { ranged with target := .cast } =
      .error (.ofFault (.malformed (.targetForm .cast .localVar))) := by
  obtain ⟨-, hwrite, hread, hrefuse, -⟩ := targetInfo_lengths
  have hbytes : ranged.write = .ok [0x40, 0, 1, 0, 0, 0, 4, 0, 1, 1, 0, 0, 0, 1, 0, 0] := by rfl
  have hinfo : TargetInfo.read ⟨.empty, ⟨false⟩, .code, 0, some (.ofInstructions 4 [] false)⟩
      .localVar (.start [0, 1, 0, 0, 0, 4, 0, 1, 7]) = .ok ranged.info ⟨[7], 8, []⟩ := by rfl
  obtain ⟨-, x, hlength, past⟩ := hread _ _ _ _ _ hinfo
  exact ⟨hwrite _ _ hbytes, ⟨_, x, hinfo, hlength, past⟩, hrefuse _ (by decide)⟩

end TypeAnnotation

end ClassFormat
