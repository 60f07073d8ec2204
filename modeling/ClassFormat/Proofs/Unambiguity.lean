import Mathlib
import ClassFormat.Proofs.Attribute.Leaf

/-!
# What bytes tell of a value

What is written for a value tells the value: nothing else is written as bytes that start in the
same way. Unlike reading back, this does not ask whether what the value refers to is there, so it
compares a value with what is read in its place.

* `Writer.Identifies`: the bytes of a value tell it, up to a relation, whatever follows them;
* `Writer.Identifies.table`, `Writer.Identifies.shortTable`: tables tell their rows;
* `Writer.Unambiguous`: the bytes of each value tell the value itself;
* `ElementValue.identifies`, `StackMapFrame.unambiguous` and so on: the parts of attributes;
* `Attribute.eq_of_write`: the body of an attribute that holds no others.
-/

namespace ClassFormat

/-! ### Identification -/

namespace Writer

variable {α β : Type} {write : α → Written} {write' : β → Written} {R : α → β → Prop}
  {x y s t : Bytes}

/-- Whatever `write'` writes as bytes that start as those of `a` is related to `a`, and what
    follows is the same. -/
def Identifies (write : α → Written) (write' : β → Written) (R : α → β → Prop) (a : α) : Prop :=
  ∀ ⦃b x y s t⦄, write a = .ok x → write' b = .ok y → x ++ s = y ++ t → R a b ∧ s = t

/-- The bytes of a value tell the value. -/
def Unambiguous (write : α → Written) : Prop := ∀ a, Identifies write write Eq a

@[simp] theorem u1_append_inj {m n : UInt8} : u1 m ++ s = u1 n ++ t ↔ m = n ∧ s = t := by simp [u1]

@[simp] theorem u2_append_inj {m n : UInt16} : u2 m ++ s = u2 n ++ t ↔ m = n ∧ s = t :=
  ⟨Reader.reads_u2.unique rfl rfl, fun ⟨hm, hs⟩ => hm ▸ hs ▸ rfl⟩

@[simp] theorem u4_append_inj {m n : UInt32} : u4 m ++ s = u4 n ++ t ↔ m = n ∧ s = t :=
  ⟨Reader.reads_u4.unique rfl rfl, fun ⟨hm, hs⟩ => hm ▸ hs ▸ rfl⟩

theorem Unambiguous.eq (h : Unambiguous write) {a b : α} (ha : write a = .ok x)
    (hb : write b = .ok x) : a = b :=
  (h a (s := []) ha hb rfl).1

/-- Values that are always written. -/
theorem unambiguous_of_append_inj {f : α → Bytes}
    (h : ∀ a b s t, f a ++ s = f b ++ t → a = b ∧ s = t) : Unambiguous fun a => .ok (f a) := by
  intro a b x y s t hx hy he
  cases hx
  cases hy
  exact h a b s t he

theorem unambiguous_u2 : Unambiguous fun n => .ok (u2 n) :=
  unambiguous_of_append_inj fun _ _ _ _ => u2_append_inj.1

/-! ### Tables -/

/-- As many values are told one by one. -/
theorem Identifies.each {items : List α} {items' : List β}
    (h : ∀ a ∈ items, Identifies write write' R a) (hn : items.length = items'.length)
    (hx : Spelling.each (fun a x => write a = .ok x) items x)
    (hy : Spelling.each (fun b y => write' b = .ok y) items' y) (he : x ++ s = y ++ t) :
    List.Forall₂ R items items' ∧ s = t := by
  induction items generalizing items' x y with
  | nil =>
    obtain rfl := List.eq_nil_of_length_eq_zero hn.symm
    obtain rfl := hx
    obtain rfl := hy
    exact ⟨.nil, he⟩
  | cons a rest ih =>
    obtain _ | ⟨b, rest'⟩ := items'
    · cases hn
    obtain ⟨x, xs, hx, hxs, rfl⟩ := hx
    obtain ⟨y, ys, hy, hys, rfl⟩ := hy
    rw [List.append_assoc, List.append_assoc] at he
    obtain ⟨ha, hrest⟩ := List.forall_mem_cons.1 h
    obtain ⟨hab, he⟩ := ha hx hy he
    obtain ⟨hall, hst⟩ := ih hrest (Nat.succ_inj.1 hn) hxs hys he
    exact ⟨.cons hab hall, hst⟩

/-- The bytes of a table tell its rows, if those of each row tell the row. -/
theorem Identifies.table {items : List α} (h : ∀ a ∈ items, Identifies write write' R a) :
    Identifies (table write) (table write') (List.Forall₂ R) items := by
  intro items' x y s t hx hy he
  obtain ⟨hn, x, hxs, rfl⟩ := table_eq_ok.1 hx
  obtain ⟨hn', y, hys, rfl⟩ := table_eq_ok.1 hy
  rw [List.append_assoc, List.append_assoc, u2_append_inj] at he
  have hcount := congrArg UInt16.toNat he.1
  rw [UInt16.toNat_ofNat_of_lt' hn, UInt16.toNat_ofNat_of_lt' hn'] at hcount
  exact Identifies.each h hcount hxs hys he.2

/-- The bytes of a short table tell its rows, if those of each row tell the row. -/
theorem Identifies.shortTable {items : List α} (h : ∀ a ∈ items, Identifies write write' R a) :
    Identifies (shortTable write) (shortTable write') (List.Forall₂ R) items := by
  intro items' x y s t hx hy he
  obtain ⟨hn, x, hxs, rfl⟩ := shortTable_eq_ok.1 hx
  obtain ⟨hn', y, hys, rfl⟩ := shortTable_eq_ok.1 hy
  rw [List.append_assoc, List.append_assoc, u1_append_inj] at he
  have hcount := congrArg UInt8.toNat he.1
  rw [UInt8.toNat_ofNat_of_lt' hn, UInt8.toNat_ofNat_of_lt' hn'] at hcount
  exact Identifies.each h hcount hxs hys he.2

/-- Lists that are equal element by element are equal. -/
theorem Identifies.of_forall₂_eq {write write' : List α → Written} {items : List α}
    (h : Identifies write write' (List.Forall₂ Eq) items) : Identifies write write' Eq items := by
  rwa [List.forall₂_eq_eq_eq] at h

/-- The bytes of a table tell the table. -/
theorem Unambiguous.table (h : Unambiguous write) : Unambiguous (table write) :=
  fun _ => (Identifies.table fun a _ => h a).of_forall₂_eq

theorem Unambiguous.shortTable (h : Unambiguous write) : Unambiguous (shortTable write) :=
  fun _ => (Identifies.shortTable fun a _ => h a).of_forall₂_eq

/-- The bytes of a list of indices tell the list. -/
theorem unambiguous_indices : Unambiguous indices := by
  rw [indices_eq_table]
  exact unambiguous_u2.table

end Writer

open Writer

/-! ### Rows -/

theorem LineNumber.unambiguous : Unambiguous fun row : LineNumber => .ok row.write :=
  unambiguous_of_append_inj fun ⟨_, _⟩ ⟨_, _⟩ _ _ h => by simpa [write, and_assoc] using h

theorem LocalVariable.unambiguous : Unambiguous fun row : LocalVariable => .ok row.write :=
  unambiguous_of_append_inj fun ⟨_, _, _, _, _⟩ ⟨_, _, _, _, _⟩ _ _ h => by
    simpa [write, and_assoc] using h

theorem InnerClass.unambiguous : Unambiguous fun row : InnerClass => .ok row.write :=
  unambiguous_of_append_inj fun ⟨_, _, _, _⟩ ⟨_, _, _, _⟩ _ _ h => by
    simpa [write, and_assoc] using h

theorem MethodParameter.unambiguous : Unambiguous fun row : MethodParameter => .ok row.write :=
  unambiguous_of_append_inj fun ⟨_, _⟩ ⟨_, _⟩ _ _ h => by simpa [write, and_assoc] using h

theorem ExceptionHandler.unambiguous : Unambiguous fun h : ExceptionHandler => .ok h.write :=
  unambiguous_of_append_inj fun ⟨_, _, _, _⟩ ⟨_, _, _, _⟩ _ _ h => by
    simpa [write, and_assoc] using h

theorem LocalVarRange.unambiguous : Unambiguous fun range : LocalVarRange => .ok range.write :=
  unambiguous_of_append_inj fun ⟨_, _, _⟩ ⟨_, _, _⟩ _ _ h => by simpa [write, and_assoc] using h

/-- The bytes of a bootstrap method tell the method and its arguments. -/
theorem BootstrapMethod.unambiguous : Unambiguous BootstrapMethod.write := by
  rintro ⟨methodIndex, arguments⟩ ⟨methodIndex', arguments'⟩ x y s t hx hy he
  simp only [write, bind_eq_ok, pure_eq_ok] at hx hy
  obtain ⟨x, hx, rfl⟩ := hx
  obtain ⟨y, hy, rfl⟩ := hy
  rw [List.append_assoc, List.append_assoc, u2_append_inj] at he
  obtain ⟨rfl, he⟩ := he
  obtain ⟨rfl, rfl⟩ := unambiguous_indices _ hx hy he
  exact ⟨rfl, rfl⟩

/-! ### Modules -/

namespace ModuleDescriptor

theorem Requires.unambiguous : Unambiguous fun r : Requires => .ok r.write :=
  unambiguous_of_append_inj fun ⟨_, _, _⟩ ⟨_, _, _⟩ _ _ h => by simpa [write, and_assoc] using h

/-- The bytes of a package that is exported or opened tell to which modules it is. -/
theorem Package.unambiguous : Unambiguous Package.write := by
  rintro ⟨packageIndex, accessFlags, modules⟩ ⟨packageIndex', accessFlags', modules'⟩
    x y s t hx hy he
  simp only [write, bind_eq_ok, pure_eq_ok] at hx hy
  obtain ⟨x, hx, rfl⟩ := hx
  obtain ⟨y, hy, rfl⟩ := hy
  simp only [List.append_assoc, u2_append_inj] at he
  obtain ⟨rfl, rfl, he⟩ := he
  obtain ⟨rfl, rfl⟩ := unambiguous_indices _ hx hy he
  exact ⟨rfl, rfl⟩

/-- The bytes of a service that is provided tell by which classes it is. -/
theorem Provides.unambiguous : Unambiguous Provides.write := by
  rintro ⟨serviceIndex, classes⟩ ⟨serviceIndex', classes'⟩ x y s t hx hy he
  simp only [write, bind_eq_ok, pure_eq_ok] at hx hy
  obtain ⟨x, hx, rfl⟩ := hx
  obtain ⟨y, hy, rfl⟩ := hy
  simp only [List.append_assoc, u2_append_inj] at he
  obtain ⟨rfl, he⟩ := he
  obtain ⟨rfl, rfl⟩ := unambiguous_indices _ hx hy he
  exact ⟨rfl, rfl⟩

/-- The bytes of a module tell all of its tables. -/
theorem unambiguous : Unambiguous ModuleDescriptor.write := by
  rintro ⟨_, _, _, _, _, _, _, _⟩ ⟨_, _, _, _, _, _, _, _⟩ x y s t hx hy he
  simp only [write, bind_eq_ok, pure_eq_ok] at hx hy
  obtain ⟨_, h₁, _, h₂, _, h₃, _, h₄, _, h₅, rfl⟩ := hx
  obtain ⟨_, h₁', _, h₂', _, h₃', _, h₄', _, h₅', rfl⟩ := hy
  simp only [List.append_assoc, u2_append_inj] at he
  obtain ⟨rfl, rfl, rfl, he⟩ := he
  obtain ⟨rfl, he⟩ := Requires.unambiguous.table _ h₁ h₁' he
  obtain ⟨rfl, he⟩ := Package.unambiguous.table _ h₂ h₂' he
  obtain ⟨rfl, he⟩ := Package.unambiguous.table _ h₃ h₃' he
  obtain ⟨rfl, he⟩ := unambiguous_indices _ h₄ h₄' he
  obtain ⟨rfl, he⟩ := Provides.unambiguous.table _ h₅ h₅' he
  exact ⟨rfl, he⟩

end ModuleDescriptor

/-! ### Annotations -/

/-- The bytes of a pair tell the pair, if those of its value tell the value. -/
theorem ElementPair.identifies {p : ElementPair}
    (h : Identifies ElementValue.write ElementValue.write Eq p.value) :
    Identifies ElementPair.write ElementPair.write Eq p := by
  obtain ⟨nameIndex, value⟩ := p
  rintro ⟨nameIndex', value'⟩ x y s t hx hy he
  simp only [write, bind_eq_ok, pure_eq_ok] at hx hy
  obtain ⟨x, hx, rfl⟩ := hx
  obtain ⟨y, hy, rfl⟩ := hy
  rw [List.append_assoc, List.append_assoc, u2_append_inj] at he
  obtain ⟨rfl, he⟩ := he
  obtain ⟨rfl, rfl⟩ := h hx hy he
  exact ⟨rfl, rfl⟩

mutual

/-- The bytes of a value tell the value, whatever it is nested in and whatever is nested in it. -/
theorem ElementValue.identifies (v : ElementValue) :
    Identifies ElementValue.write ElementValue.write Eq v := by
  intro w x y s t hx hy he
  -- The byte that announces a value tells which constructor it is.
  obtain ⟨x, rfl⟩ := ElementValue.exists_cons_of_write hx
  obtain ⟨y, rfl⟩ := ElementValue.exists_cons_of_write hy
  rw [List.append_assoc, List.append_assoc, u1_append_inj] at he
  obtain ⟨hcode, he⟩ := he
  replace hx := (ElementValue.write_cons.1 hx).2
  replace hy := (ElementValue.write_cons.1 hy).2
  cases v with
  | constant tag index =>
    obtain ⟨index', rfl⟩ := ElementValue.code_eq_tag.1 hcode.symm
    subst hx hy
    obtain ⟨rfl, rfl⟩ := u2_append_inj.1 he
    exact ⟨rfl, rfl⟩
  | enum typeIndex nameIndex =>
    obtain ⟨typeIndex', nameIndex', rfl⟩ := ElementValue.code_eq_enumCode.1 hcode.symm
    subst hx hy
    simp only [List.append_assoc, u2_append_inj] at he
    obtain ⟨rfl, rfl, rfl⟩ := he
    exact ⟨rfl, rfl⟩
  | nested a =>
    obtain ⟨a', rfl⟩ := ElementValue.code_eq_annotationCode.1 hcode.symm
    obtain ⟨rfl, rfl⟩ := Annotation.identifies a hx hy he
    exact ⟨rfl, rfl⟩
  | array values =>
    obtain ⟨values', rfl⟩ := ElementValue.code_eq_arrayCode.1 hcode.symm
    obtain ⟨rfl, rfl⟩ :=
      (Identifies.table fun v _ => ElementValue.identifies v).of_forall₂_eq hx hy he
    exact ⟨rfl, rfl⟩
termination_by sizeOf v

/-- The bytes of an annotation tell the annotation. -/
theorem Annotation.identifies (a : Annotation) :
    Identifies Annotation.write Annotation.write Eq a := by
  obtain ⟨typeIndex, pairs⟩ := a
  rintro ⟨typeIndex', pairs'⟩ x y s t hx hy he
  obtain ⟨x, hxs, rfl⟩ := Annotation.write_eq_ok.1 hx
  obtain ⟨y, hys, rfl⟩ := Annotation.write_eq_ok.1 hy
  rw [List.append_assoc, List.append_assoc, u2_append_inj] at he
  obtain ⟨rfl, he⟩ := he
  have hpairs : ∀ p ∈ pairs, Identifies ElementPair.write ElementPair.write Eq p := fun p hp =>
    ElementPair.identifies (ElementValue.identifies p.value)
  obtain ⟨rfl, rfl⟩ := (Identifies.table hpairs).of_forall₂_eq hxs hys he
  exact ⟨rfl, rfl⟩
termination_by sizeOf a
decreasing_by
  have hsize := List.sizeOf_lt_of_mem hp
  obtain ⟨nameIndex, value⟩ := p
  simp only [ElementPair.mk.sizeOf_spec, Annotation.mk.sizeOf_spec] at hsize ⊢
  omega

end

namespace Annotation

theorem unambiguous_writeList : Unambiguous writeList := Unambiguous.table identifies

/-- The bytes of the annotations of parameters tell which parameter has which of them. -/
theorem unambiguous_writeParameters : Unambiguous writeParameters :=
  unambiguous_writeList.shortTable

end Annotation

/-! ### Type annotations -/

theorem TypePath.Step.unambiguous : Unambiguous fun step : Step => .ok step.write :=
  unambiguous_of_append_inj fun a b _ _ => by cases a <;> cases b <;> simp [write, code]

theorem TypePath.unambiguous : Unambiguous TypePath.write := TypePath.Step.unambiguous.shortTable

/-- The bytes of the data of a form tell the data. -/
theorem TargetInfo.eq_of_write {a b : TargetInfo} {x y s t : Bytes} (hform : a.form = b.form)
    (hx : a.write = .ok x) (hy : b.write = .ok y) (he : x ++ s = y ++ t) : a = b ∧ s = t := by
  cases a <;> cases b <;> cases hform
  case localVar ranges ranges' =>
    obtain ⟨rfl, rfl⟩ := LocalVarRange.unambiguous.table _ hx hy he
    exact ⟨rfl, rfl⟩
  all_goals
    cases hx
    cases hy
    simpa [and_assoc] using he

/-- The bytes of a type annotation tell its target, too, since the target type tells the form of
    what follows. -/
theorem TypeAnnotation.unambiguous : Unambiguous TypeAnnotation.write := by
  rintro ⟨target, info, path, a⟩ ⟨target', info', path', a'⟩ x y s t hx hy he
  obtain ⟨hform, _, h₁, _, h₂, _, h₃, rfl⟩ := write_eq_ok.1 hx
  obtain ⟨hform', _, h₁', _, h₂', _, h₃', rfl⟩ := write_eq_ok.1 hy
  simp only [List.append_assoc, u1_append_inj] at he
  obtain ⟨hvalue, he⟩ := he
  obtain rfl : target' = target := by
    simpa [TargetType.ofValue?_value] using TargetType.ofValue?_eq_some.2 hvalue
  obtain ⟨rfl, he⟩ := TargetInfo.eq_of_write (hform.trans hform'.symm) h₁ h₁' he
  obtain ⟨rfl, he⟩ := TypePath.unambiguous _ h₂ h₂' he
  obtain ⟨rfl, he⟩ := a.identifies h₃ h₃' he
  exact ⟨rfl, he⟩

/-! ### Stack maps -/

/-- The bytes of a verification type tell the type, the first one telling how many there are. -/
theorem VerificationType.unambiguous : Unambiguous fun t : VerificationType => .ok t.write :=
  unambiguous_of_append_inj fun a b _ _ => by cases a <;> cases b <;> simp [write]

/-- The bytes of a frame tell the frame, as its first byte tells the form and, in the short forms,
    the contents. -/
theorem StackMapFrame.unambiguous : Unambiguous StackMapFrame.write := by
  intro a b x y s t hx hy he
  obtain ⟨type, x, rfl⟩ := List.exists_cons_of_ne_nil (ne_nil_of_write hx)
  obtain ⟨type', y, rfl⟩ := List.exists_cons_of_ne_nil (ne_nil_of_write hy)
  rw [List.cons_append, List.cons_append, List.cons.injEq] at he
  obtain ⟨rfl, he⟩ := he
  replace hx := write_cons.1 hx
  replace hy := write_cons.1 hy
  have hbounds := hx.bounds
  have hbounds' := hy.bounds
  cases a <;> cases b
  case same.same =>
    obtain ⟨-, rfl, rfl⟩ := hx
    obtain ⟨-, rfl, rfl⟩ := hy
    exact ⟨rfl, he⟩
  case sameOneItem.sameOneItem delta stack delta' stack' =>
    obtain ⟨-, htype, rfl⟩ := hx
    obtain ⟨-, htype', rfl⟩ := hy
    obtain rfl : delta = delta' := by grind
    obtain ⟨rfl, rfl⟩ := VerificationType.unambiguous _ rfl rfl he
    exact ⟨rfl, rfl⟩
  case sameOneItemExtended.sameOneItemExtended =>
    obtain ⟨-, rfl⟩ := hx
    obtain ⟨-, rfl⟩ := hy
    rw [List.append_assoc, List.append_assoc, u2_append_inj] at he
    obtain ⟨rfl, he⟩ := he
    obtain ⟨rfl, rfl⟩ := VerificationType.unambiguous _ rfl rfl he
    exact ⟨rfl, rfl⟩
  case chop.chop chopped delta chopped' delta' =>
    obtain ⟨-, -, htype, rfl⟩ := hx
    obtain ⟨-, -, htype', rfl⟩ := hy
    obtain rfl : chopped = chopped' := by grind
    obtain ⟨rfl, rfl⟩ := u2_append_inj.1 he
    exact ⟨rfl, rfl⟩
  case sameExtended.sameExtended =>
    obtain ⟨-, rfl⟩ := hx
    obtain ⟨-, rfl⟩ := hy
    obtain ⟨rfl, rfl⟩ := u2_append_inj.1 he
    exact ⟨rfl, rfl⟩
  case append.append delta locals delta' locals' =>
    obtain ⟨h0, h3, rfl, rfl⟩ := hx
    obtain ⟨h0', h3', htype, rfl⟩ := hy
    -- There are as many locals, since the byte for the type counts them.
    have hcount := (appendType (by simpa using h0) h3).2.2
    rw [htype, (appendType (by simpa using h0') h3').2.2] at hcount
    rw [List.append_assoc, List.append_assoc, u2_append_inj] at he
    obtain ⟨rfl, he⟩ := he
    have heach (locals : List VerificationType) : Spelling.each
        (fun t x => (.ok t.write : Written) = .ok x) locals
            (locals.flatMap VerificationType.write) :=
      rows_eq_ok.1 (rows_ok _ locals)
    obtain ⟨hlocals, rfl⟩ := Identifies.each (fun t _ => VerificationType.unambiguous t) hcount.symm
      (heach locals) (heach locals') he
    rw [List.forall₂_eq_eq_eq] at hlocals
    exact ⟨hlocals ▸ rfl, rfl⟩
  case full.full =>
    obtain ⟨-, _, _, h₁, h₂, rfl⟩ := hx
    obtain ⟨-, _, _, h₁', h₂', rfl⟩ := hy
    simp only [List.append_assoc, u2_append_inj] at he
    obtain ⟨rfl, he⟩ := he
    obtain ⟨rfl, he⟩ := VerificationType.unambiguous.table _ h₁ h₁' he
    obtain ⟨rfl, he⟩ := VerificationType.unambiguous.table _ h₂ h₂' he
    exact ⟨rfl, he⟩
  -- Other than that, the byte for the type is in different ranges.
  all_goals grind

/-! ### Bodies of attributes -/

namespace Attribute

variable {kind : Kind} {a b : Attribute} {pool pool' : ConstantPool} {bytes : Bytes}

/-- Contents that are written as a value of another type. -/
theorem eq_of_make {α : Type} {write : α → Written} {make : α → Attribute} (h : Unambiguous write)
    (hmake : ∀ a, a.kind? = some kind ↔ ∃ x, a = make x)
    (hwrite : ∀ pool x, (make x).write pool = write x) (ha : a.kind? = some kind)
    (hb : b.kind? = some kind) (hx : a.write pool = .ok bytes) (hy : b.write pool' = .ok bytes) :
    a = b := by
  obtain ⟨x, rfl⟩ := (hmake a).1 ha
  obtain ⟨y, rfl⟩ := (hmake b).1 hb
  rw [hwrite] at hx hy
  rw [h.eq hx hy]

/-- The body of an attribute of a kind tells the attribute, unless there are others in it. -/
theorem eq_of_write (hcode : kind ≠ .code) (hrecord : kind ≠ .record) (ha : a.kind? = some kind)
    (hb : b.kind? = some kind) (hx : a.write pool = .ok bytes) (hy : b.write pool' = .ok bytes) :
    a = b := by
  cases kind with
  | code => exact absurd rfl hcode
  | record => exact absurd rfl hrecord
  | constantValue | signature | sourceFile | moduleMainClass | nestHost =>
    exact eq_of_make unambiguous_u2 (fun _ => kind?_eq_some) (fun _ _ => by rw [write]) ha hb hx hy
  | exceptions | modulePackages | nestMembers | permittedSubclasses =>
    exact eq_of_make unambiguous_indices (fun _ => kind?_eq_some)
      (fun _ _ => by rw [write]) ha hb hx hy
  | stackMapTable =>
    exact eq_of_make StackMapFrame.unambiguous.table (fun _ => kind?_eq_some)
      (fun _ _ => by rw [write]; rfl) ha hb hx hy
  | innerClasses =>
    exact eq_of_make InnerClass.unambiguous.table (fun _ => kind?_eq_some)
      (fun _ _ => by rw [write]) ha hb hx hy
  | enclosingMethod =>
    obtain ⟨_, _, rfl⟩ := kind?_eq_some.1 ha
    obtain ⟨_, _, rfl⟩ := kind?_eq_some.1 hb
    rw [write, Except.ok.injEq] at hx hy
    obtain ⟨rfl, h⟩ := u2_append_inj.1 (hx.trans hy.symm)
    rw [unambiguous_u2.eq rfl (congrArg _ h.symm)]
  | synthetic | deprecated => exact (kind?_eq_some.1 ha).trans (kind?_eq_some.1 hb).symm
  | sourceDebugExtension =>
    obtain ⟨_, rfl⟩ := kind?_eq_some.1 ha
    obtain ⟨_, rfl⟩ := kind?_eq_some.1 hb
    rw [write, Except.ok.injEq] at hx hy
    rw [hx, hy]
  | lineNumberTable =>
    exact eq_of_make LineNumber.unambiguous.table (fun _ => kind?_eq_some)
      (fun _ _ => by rw [write]) ha hb hx hy
  | localVariableTable | localVariableTypeTable =>
    exact eq_of_make LocalVariable.unambiguous.table (fun _ => kind?_eq_some)
      (fun _ _ => by rw [write]) ha hb hx hy
  | runtimeVisibleAnnotations | runtimeInvisibleAnnotations =>
    exact eq_of_make Annotation.unambiguous_writeList (fun _ => kind?_eq_some)
      (fun _ _ => by rw [write]) ha hb hx hy
  | runtimeVisibleParameterAnnotations | runtimeInvisibleParameterAnnotations =>
    exact eq_of_make Annotation.unambiguous_writeParameters (fun _ => kind?_eq_some)
      (fun _ _ => by rw [write]) ha hb hx hy
  | runtimeVisibleTypeAnnotations | runtimeInvisibleTypeAnnotations =>
    exact eq_of_make TypeAnnotation.unambiguous.table (fun _ => kind?_eq_some)
      (fun _ _ => by rw [write]; rfl) ha hb hx hy
  | annotationDefault =>
    exact eq_of_make ElementValue.identifies (fun _ => kind?_eq_some)
      (fun _ _ => by rw [write]) ha hb hx hy
  | bootstrapMethods =>
    exact eq_of_make BootstrapMethod.unambiguous.table (fun _ => kind?_eq_some)
      (fun _ _ => by rw [write]) ha hb hx hy
  | methodParameters =>
    exact eq_of_make MethodParameter.unambiguous.shortTable (fun _ => kind?_eq_some)
      (fun _ _ => by rw [write]) ha hb hx hy
  | module =>
    exact eq_of_make ModuleDescriptor.unambiguous (fun _ => kind?_eq_some)
      (fun _ _ => by rw [write]) ha hb hx hy

end Attribute

end ClassFormat
