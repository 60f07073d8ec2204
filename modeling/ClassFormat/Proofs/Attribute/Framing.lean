import Mathlib
import ClassFormat.Proofs.Attribute.Leaf
import ClassFormat.Proofs.Framing

/-!
# Contents of attributes, divided as they were written

Whatever an attribute says, its contents are divided by the reader as the writer put them together.

* `LineNumber.frames_read` and so on, `ModuleDescriptor.frames_read`: rows and modules;
* `ElementValue.frames_readWithin`, `TypeAnnotation.frames_read`: annotations;
* `StackMapFrame.frames_readTable`: stack maps;
* `Attribute.fills_readLeaf`: the contents of an attribute that holds no attributes itself.
-/

namespace ClassFormat

open Reader

variable (s : Surroundings) (pool : ConstantPool) {x : Bytes}

/-! ### Rows and modules -/

/-- A line takes its two numbers, whatever they say. -/
theorem LineNumber.frames_read (row : LineNumber) : (read s).Frames row.write :=
  .next reads_u2 rfl <| .last reads_u2 rfl <|
    .check (s.judges_ifCode fun map => map.judges_requireStart _ _) fun _ => .pure _

/-- A local variable takes its five numbers before any of them is checked. -/
theorem LocalVariable.frames_read (row : LocalVariable) : (read s).Frames row.write := by
  simp only [write, List.append_assoc]
  exact .next reads_u2 rfl <| .next reads_u2 rfl <| .next reads_u2 rfl <| .next reads_u2 rfl <|
    .last reads_u2 rfl <| .check (s.pool.judges_require _ _) fun _ =>
    .check (s.pool.judges_require _ _) fun _ =>
      .check (s.judges_ifCode fun map => map.judges_requireRange _ _ _) fun _ => .pure _

/-- An inner class takes its four numbers before any of them is checked. -/
theorem InnerClass.frames_read (row : InnerClass) : (read pool).Frames row.write := by
  simp only [write, List.append_assoc]
  exact .next reads_u2 rfl <| .next reads_u2 rfl <| .next reads_u2 rfl <| .last reads_u2 rfl <|
    .check (pool.judges_require _ _) fun _ => .check (pool.judges_requireOptional _ _) fun _ =>
      .check (pool.judges_requireOptional _ _) fun _ => .pure _

/-- A bootstrap method takes its handle and as many arguments as it counts. -/
theorem BootstrapMethod.frames_read {row : BootstrapMethod} (h : row.write = .ok x) :
    (read pool).Frames x := by
  simp only [write, bind_eq_ok, pure_eq_ok] at h
  obtain ⟨y, hy, rfl⟩ := h
  exact .bind (pool.frames_index _ _) fun _ => (pool.frames_indexTable _ hy).map

/-- A parameter takes its two numbers before the name is checked. -/
theorem MethodParameter.frames_read (row : MethodParameter) : (read pool).Frames row.write :=
  .next reads_u2 rfl <| .last reads_u2 rfl <| .check (pool.judges_requireOptional _ _) fun _ =>
    .pure _

namespace ModuleDescriptor

/-- What a module requires takes its three numbers. -/
theorem Requires.frames_read (r : Requires) : (read pool).Frames r.write := by
  simp only [write, List.append_assoc]
  exact .bind (pool.frames_index _ _) fun _ =>
    .next reads_u2 rfl (pool.frames_optionalIndex _ _).map

/-- A package takes its two numbers and as many modules as it counts. -/
theorem Package.frames_read {p : Package} (h : p.write = .ok x) : (read pool).Frames x := by
  simp only [write, bind_eq_ok, pure_eq_ok] at h
  obtain ⟨y, hy, rfl⟩ := h
  rw [List.append_assoc]
  exact .bind (pool.frames_index _ _) fun _ => .next reads_u2 rfl (pool.frames_indexTable _ hy).map

/-- A service takes its index and as many classes as it counts. -/
theorem Provides.frames_read {p : Provides} (h : p.write = .ok x) : (read pool).Frames x := by
  simp only [write, bind_eq_ok, pure_eq_ok] at h
  obtain ⟨y, hy, rfl⟩ := h
  exact .bind (pool.frames_index _ _) fun _ => (pool.frames_indexTable _ hy).map

/-- A module takes its three numbers and its five tables. -/
theorem frames_read {m : ModuleDescriptor} (h : m.write = .ok x) : (read pool).Frames x := by
  simp only [write, bind_eq_ok, pure_eq_ok] at h
  obtain ⟨a, ha, b, hb, c, hc, d, hd, e, he, rfl⟩ := h
  simp only [List.append_assoc]
  exact .bind (pool.frames_index _ _) fun _ => .next reads_u2 rfl <|
    .bind (pool.frames_optionalIndex _ _) fun _ =>
    .bind (.within (.plainTable (fun _ r => r.frames_read pool) ha)) fun _ =>
      .bind (.within (.table (fun _ _ _ _ hy => Package.frames_read pool hy) hb)) fun _ =>
        .bind (.within (.table (fun _ _ _ _ hy => Package.frames_read pool hy) hc)) fun _ =>
          .bind (pool.frames_indexTable _ hd).within fun _ =>
            .map (.within (.table (fun _ _ _ _ hy => Provides.frames_read pool hy) he))

end ModuleDescriptor

/-! ### Annotations -/

namespace Annotation

/-- An annotation takes its type and as many pairs as it counts. -/
theorem frames_readWith {readValue : Reader ElementValue}
    (hvalue : ∀ (value : ElementValue) y, value.write = .ok y → readValue.Frames y) {a : Annotation}
    (h : a.write = .ok x) : (readWith pool readValue).Frames x := by
  obtain ⟨typeIndex, pairs⟩ := a
  obtain ⟨y, hy, rfl⟩ := write_eq_ok.1 h
  refine .next reads_u2 rfl <| .check (pool.judges_text _).inside fun _ => .map <| .within <|
    .table (fun _ p _ z hz => ?_) hy
  simp only [ElementPair.write, bind_eq_ok, pure_eq_ok] at hz
  obtain ⟨w, hw, rfl⟩ := hz
  exact .next reads_u2 rfl <| .check (pool.judges_require _ _) fun _ => (hvalue _ _ hw).map

end Annotation

namespace ElementValue

/-- A constant value takes its index before it is checked. -/
theorem frames_readConstant (code : UInt8) (offset : Nat) (kind : Constant.Kind) (index : UInt16) :
    (readConstant pool code offset kind).Frames (Writer.u2 index) :=
  .last reads_u2 rfl <| .check (.inside ((pool.judges_require index [kind]).bind fun _ => .pure ()))
    fun _ => .pure _

/-- A value is divided as it was written, but only as deep as values may be nested. -/
theorem frames_readWithin (levels : Nat) {value : ElementValue} (h : value.write = .ok x) :
    (readWithin pool levels).Frames x := by
  induction levels generalizing value x with
  | zero => exact .raise id
  | succ levels ih =>
    obtain ⟨y, rfl⟩ := exists_cons_of_write h
    have hy := (write_cons.1 h).2
    refine .offset fun offset => .next reads_u1 rfl ?_
    cases value with
    | constant tag index =>
      subst hy
      simp only [code, ElementTag.ofCode?_code]
      exact (frames_readConstant pool _ _ _ index).map
    | enum typeIndex nameIndex =>
      subst hy
      exact .bind (frames_readConstant pool _ _ _ typeIndex) fun _ =>
        (frames_readConstant pool _ _ _ nameIndex).map
    | nested a =>
      have hnested := Annotation.frames_readWith pool (fun _ _ => ih) hy
      exact hnested.map
    | array values => exact (Frames.table (fun _ _ _ _ => ih) hy).map

end ElementValue

namespace Annotation

theorem frames_read {a : Annotation} (h : a.write = .ok x) : (read pool).Frames x :=
  frames_readWith pool (fun _ _ => ElementValue.frames_readWithin pool _) h

theorem frames_readList {annotations : List Annotation} (h : writeList annotations = .ok x) :
    (readList pool).Frames x := .table (fun _ _ _ _ hy => (frames_read pool hy).within) h

theorem frames_readParameters {parameters : List (List Annotation)}
    (h : writeParameters parameters = .ok x) :
    (readParameters pool).Frames x :=
  .shortTable (fun _ _ _ _ hy => (frames_readList pool hy).within) h

end Annotation

/-- The range of a local variable takes its three numbers before they are checked. -/
theorem LocalVarRange.frames_read (map : CodeMap) (range : LocalVarRange) :
    (read map).Frames range.write := by
  simp only [write, List.append_assoc]
  exact .next reads_u2 rfl <| .next reads_u2 rfl <| .last reads_u2 rfl <|
    .check (map.judges_requireRange _ _ _) fun _ => .pure _

/-- The form that the target type asks for divides what is written for data of that form. -/
theorem TargetInfo.frames_read {info : TargetInfo} (h : info.write = .ok x) :
    (read s info.form).Frames x := by
  cases info with
  | localVar ranges =>
    exact .check s.judges_code fun map =>
      (Frames.plainTable (fun _ range => range.frames_read map) h).map
  | empty =>
    cases h
    exact .pure _
  | typeParameter index | formalParameter index =>
    cases h
    exact .last reads_u1 rfl (.pure _)
  | supertype index =>
    cases h
    exact .last reads_u2 rfl (.refuse (b := ()) id (.pure _))
  | typeParameterBound parameter bound =>
    cases h
    exact .next reads_u1 rfl (.last reads_u1 rfl (.pure _))
  | throws index =>
    cases h
    exact .last reads_u2 rfl (.pure _)
  | handler index =>
    cases h
    exact .last reads_u2 rfl <| .check s.judges_code fun _ => .refuse (b := ()) id (.pure _)
  | offset position =>
    cases h
    exact .last reads_u2 rfl <| .check s.judges_code fun map => .check (map.judges_requireStart _ _)
      fun _ => .pure _
  | typeArgument position argument =>
    cases h
    exact .next reads_u2 rfl <| .last reads_u1 rfl <| .check s.judges_code fun map =>
      .check (map.judges_requireStart _ _) fun _ => .pure _

namespace TypeAnnotation

/-- A type annotation takes what was written for it, or is refused for what it says. -/
theorem frames_read {a : TypeAnnotation} (h : a.write = .ok x) : (read s).Frames x := by
  obtain ⟨hform, y, hy, z, hz, w, hw, rfl⟩ := write_eq_ok.1 h
  have hinfo := TargetInfo.frames_read s hy
  have hannotation := Annotation.frames_read s.pool hw
  rw [hform] at hinfo
  refine .offset fun offset => .next reads_u1 rfl ?_
  simp only [TargetType.ofValue?_value]
  exact .refuse (b := ()) trivial <| .bind hinfo.within fun _ =>
    .bind (.of_reads TypePath.inverts_read ⟨hz, trivial⟩) fun _ => hannotation.map

theorem frames_readList {annotations : List TypeAnnotation} (h : writeList annotations = .ok x) :
    (readList s).Frames x := .table (fun _ _ _ _ hy => (frames_read s hy).within) h

end TypeAnnotation

/-! ### Stack maps -/

/-- A verification type takes its tag, and its number if it has one. -/
theorem VerificationType.frames_read (t : VerificationType) : (read s).Frames t.write := by
  cases t with
  | object index => exact .next reads_u1 rfl (s.pool.frames_index index [.classref]).map
  | uninitialized offset =>
    exact .next reads_u1 rfl <| .last reads_u2 rfl <|
      .check (s.judges_ifCode fun map => map.judges_requireStart _ _) fun _ => .pure _
  | _ => exact .last reads_u1 rfl (.pure _)

namespace StackMapFrame

theorem frames_types {types : List VerificationType}
    (h : Writer.table (fun t => .ok t.write) types = .ok x) :
    (table fun _ => VerificationType.read s).Frames x := .plainTable (fun _ t => t.frames_read s) h

/-- A frame takes what its first byte asks for. -/
theorem frames_read {frame : StackMapFrame} (h : frame.write = .ok x) : (read s).Frames x := by
  obtain ⟨type, y, rfl⟩ := List.exists_cons_of_ne_nil (ne_nil_of_write h)
  have hy := write_cons.1 h
  refine .next reads_u1 rfl ?_
  dsimp only
  -- The type of the frame is in the range of its sort.
  cases frame with
  | same delta =>
    rw [if_pos hy.bounds, hy.2.2]
    exact .pure _
  | sameOneItem delta stack =>
    have hb := hy.bounds
    rw [if_neg (by grind), if_pos hb.2, hy.2.2]
    exact (stack.frames_read s).map
  | sameOneItemExtended delta stack =>
    obtain ⟨rfl, rfl⟩ := hy
    rw [if_neg (by decide), if_neg (by decide), if_neg (by decide), if_pos rfl]
    exact .next reads_u2 rfl (stack.frames_read s).map
  | chop chopped delta =>
    have hb := hy.bounds
    rw [if_neg (by grind), if_neg (by grind), if_neg (by grind), if_neg (by grind),
      if_pos hb.2, hy.2.2.2]
    exact .last reads_u2 rfl (.pure _)
  | sameExtended delta =>
    obtain ⟨rfl, rfl⟩ := hy
    rw [if_neg (by decide), if_neg (by decide), if_neg (by decide), if_neg (by decide),
      if_neg (by decide), if_pos rfl]
    exact .last reads_u2 rfl (.pure _)
  | append delta locals =>
    have hb := hy.bounds
    obtain ⟨h0, h3, rfl, rfl⟩ := hy
    rw [if_neg (by grind), if_neg (by grind), if_neg (by grind), if_neg (by grind),
      if_neg (by grind), if_neg (by grind), if_pos hb.2, (appendType (by simpa using h0) h3).2.2]
    have hlocals := Writer.rows_eq_ok.1 (Writer.rows_ok VerificationType.write locals)
    refine .next reads_u2 rfl (Frames.timesFrom (fun _ t _ z hz => ?_) hlocals 0 []).map
    cases hz
    exact t.frames_read s
  | full delta locals stack =>
    obtain ⟨rfl, a, b, ha, hb, rfl⟩ := hy
    rw [if_neg (by decide), if_neg (by decide), if_neg (by decide), if_neg (by decide),
      if_neg (by decide), if_neg (by decide), if_neg (by decide)]
    exact .next reads_u2 rfl <| .bind (frames_types s ha) fun _ => (frames_types s hb).map

/-- Frames take what was written for them, whatever their offsets add up to. -/
theorem frames_readFrom {frames : List StackMapFrame}
    (h : Spelling.each (fun frame y => frame.write = .ok y) frames x) (index : Nat)
    (previous : Option Nat) (done : List StackMapFrame) :
    (readFrom s index previous done frames.length).Frames x := by
  induction frames generalizing x index previous done with
  | nil =>
    obtain rfl := h
    exact .pure _
  | cons frame rest ih =>
    obtain ⟨y, z, hy, hz, rfl⟩ := h
    exact .bind (frames_read s hy).within fun _ =>
      .check (s.judges_ifCode fun map => map.judges_requireStart _ _).inside fun _ => ih hz _ _ _

/-- A stack map takes as many frames as it counts. -/
theorem frames_readTable {frames : List StackMapFrame} (h : writeTable frames = .ok x) :
    (readTable s).Frames x := by
  obtain ⟨hcount, y, hy, rfl⟩ := Writer.table_eq_ok.1 h
  refine .next reads_u2 rfl ?_
  rw [UInt16.toNat_ofNat_of_lt' hcount]
  exact frames_readFrom s hy 0 none []

end StackMapFrame

/-! ### Contents without attributes -/

namespace Attribute

/-- All that is left can be taken as it is. -/
theorem fills_remaining (bytes : Bytes) : remaining.Fills bytes where
  run hc := Or.inl ⟨bytes, covers_remaining.complete hc⟩

/-- Contents that hold no attributes are divided as they were written. -/
theorem fills_readLeaf {kind : Kind} {a : Attribute} (hkind : a.kind? = some kind)
    (hcode : kind ≠ .code) (hrecord : kind ≠ .record) (h : a.write pool = .ok x) :
    (readLeaf s kind).Fills x := by
  cases kind with
  | code => exact absurd rfl hcode
  | record => exact absurd rfl hrecord
  | constantValue | signature | sourceFile | moduleMainClass | nestHost =>
    obtain ⟨index, rfl⟩ := kind?_eq_some.1 hkind
    rw [write] at h
    cases h
    exact (s.pool.frames_index _ _).fills.map
  | exceptions | modulePackages | nestMembers | permittedSubclasses =>
    obtain ⟨indices, rfl⟩ := kind?_eq_some.1 hkind
    rw [write] at h
    exact (s.pool.frames_indexTable _ h).fills.map
  | enclosingMethod =>
    obtain ⟨classIndex, methodIndex, rfl⟩ := kind?_eq_some.1 hkind
    rw [write] at h
    cases h
    exact Frames.fills <| .next reads_u2 rfl <| .last reads_u2 rfl <|
      .check (s.pool.judges_require _ _) fun _ =>
      .check (s.pool.judges_requireOptional _ _) fun _ => .pure _
  | synthetic | deprecated =>
    obtain rfl := kind?_eq_some.1 hkind
    rw [write] at h
    cases h
    exact (Frames.pure _).fills
  | sourceDebugExtension =>
    obtain ⟨bytes, rfl⟩ := kind?_eq_some.1 hkind
    rw [write] at h
    cases h
    exact (fills_remaining _).map
  | stackMapTable =>
    obtain ⟨frames, rfl⟩ := kind?_eq_some.1 hkind
    rw [write] at h
    exact (StackMapFrame.frames_readTable s h).fills.map
  | innerClasses =>
    obtain ⟨rows, rfl⟩ := kind?_eq_some.1 hkind
    rw [write] at h
    exact (Frames.plainTable (fun _ row => row.frames_read s.pool) h).fills.map
  | lineNumberTable =>
    obtain ⟨rows, rfl⟩ := kind?_eq_some.1 hkind
    rw [write] at h
    exact (Frames.plainTable (fun _ row => row.frames_read s) h).fills.map
  | localVariableTable | localVariableTypeTable =>
    obtain ⟨rows, rfl⟩ := kind?_eq_some.1 hkind
    rw [write] at h
    exact (Frames.plainTable (fun _ row => row.frames_read s) h).fills.map
  | methodParameters =>
    obtain ⟨rows, rfl⟩ := kind?_eq_some.1 hkind
    rw [write] at h
    refine (Frames.shortTable (fun _ row _ y hy => ?_) h).fills.map
    cases hy
    exact row.frames_read s.pool
  | bootstrapMethods =>
    obtain ⟨methods, rfl⟩ := kind?_eq_some.1 hkind
    rw [write] at h
    exact (Frames.table (fun _ _ _ _ hy => (BootstrapMethod.frames_read s.pool hy).within)
      h).fills.map
  | runtimeVisibleAnnotations | runtimeInvisibleAnnotations =>
    obtain ⟨list, rfl⟩ := kind?_eq_some.1 hkind
    rw [write] at h
    have hlist := Annotation.frames_readList s.pool h
    exact hlist.fills.map
  | runtimeVisibleParameterAnnotations | runtimeInvisibleParameterAnnotations =>
    obtain ⟨parameters, rfl⟩ := kind?_eq_some.1 hkind
    rw [write] at h
    have hparameters := Annotation.frames_readParameters s.pool h
    exact hparameters.fills.map
  | runtimeVisibleTypeAnnotations | runtimeInvisibleTypeAnnotations =>
    obtain ⟨list, rfl⟩ := kind?_eq_some.1 hkind
    rw [write] at h
    have hlist := TypeAnnotation.frames_readList s h
    exact hlist.fills.map
  | annotationDefault =>
    obtain ⟨value, rfl⟩ := kind?_eq_some.1 hkind
    rw [write] at h
    exact (ElementValue.frames_readWithin s.pool _ h).fills.map
  | module =>
    obtain ⟨descriptor, rfl⟩ := kind?_eq_some.1 hkind
    rw [write] at h
    exact (ModuleDescriptor.frames_read s.pool h).fills.map

end Attribute

end ClassFormat
