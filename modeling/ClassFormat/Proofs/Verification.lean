import Mathlib
import ClassFormat.ClassFile.Read
import ClassFormat.Proofs.Reading

/-!
# Readers that verify code offsets

What it changes to verify code offsets: a reader that verifies gives what one gives that does not
verify, or else refuses it as malformed. `strict.Tightens lax` says this of two readers. It holds of
whatever is built of such readers, as no note and no rewriting of failures makes anything else of a
malformed attribute.

* `Reader.Tightens`: the relation, with one rule for each way to build a reader;
* `Surroundings.unverified`: the same surroundings with no offset verified;
* `Attribute.tightens_readList`, `ClassFile.tightens_read`: attributes and class files.
-/

namespace ClassFormat

/-- The failure tells that something is malformed. -/
def Failure.Condemns (f : Failure) : Prop := ∃ how, f.fault? = some (.malformed how)

namespace Reader

variable {α β : Type} {strict lax r : Reader α} {ks kl : α → Reader β}

/-- What the lax reader gives, the strict one gives as well, unless it refuses it as malformed. -/
structure Tightens (strict lax : Reader α) : Prop where
  agrees : ∀ {c a c'}, lax c = .ok a c' →
    strict c = .ok a c' ∨ ∃ f c'', strict c = .error f c'' ∧ f.Condemns

theorem Tightens.refl (r : Reader α) : r.Tightens r := ⟨Or.inl⟩

/-- A sequence is tightened by tightening its parts: the first refusal ends it. -/
theorem Tightens.bind (hr : strict.Tightens lax) (hk : ∀ a, (ks a).Tightens (kl a)) :
    (strict >>= ks).Tightens (lax >>= kl) := by
  refine ⟨fun {c b c'} h => ?_⟩
  obtain ⟨a, c₁, h₁, h₂⟩ := bind_eq_ok.1 h
  rcases hr.agrees h₁ with hstrict | ⟨f, c'', hfail, hf⟩
  · rcases (hk a).agrees h₂ with hthen | ⟨f, c'', hfail, hf⟩
    · exact Or.inl (bind_eq_ok.2 ⟨a, c₁, hstrict, hthen⟩)
    · refine Or.inr ⟨f, c'', ?_, hf⟩
      simp only [Bind.bind, EStateM.bind, hstrict]
      exact hfail
  · refine Or.inr ⟨f, c'', ?_, hf⟩
    simp only [Bind.bind, EStateM.bind, hfail]

/-- Readers that go on alike after the first step. -/
theorem Tightens.map (hr : strict.Tightens lax) (k : α → Reader β) :
    (strict >>= k).Tightens (lax >>= k) :=
  hr.bind fun a => .refl (k a)

/-- Readers that begin alike. -/
theorem Tightens.next (r : Reader α) (hk : ∀ a, (ks a).Tightens (kl a)) :
    (r >>= ks).Tightens (r >>= kl) :=
  (refl r).bind hk

/-- Readers that refuse alike, whatever would follow. -/
theorem Tightens.raise (fault : Fault) :
    ((fault.raise : Reader α) >>= ks).Tightens (fault.raise >>= kl) :=
  ⟨fun h => by cases h⟩

/-- Readers that make the same choice. -/
theorem Tightens.ite {p : Prop} [Decidable p] {strict' lax' : Reader α}
    (h : p → strict.Tightens lax) (h' : ¬p → strict'.Tightens lax') :
    (if p then strict else strict').Tightens (if p then lax else lax') := by
  by_cases hp : p
  · rw [if_pos hp, if_pos hp]
    exact h hp
  · rw [if_neg hp, if_neg hp]
    exact h' hp

/-- Failures may be reported in another way that still tells that something is malformed. -/
theorem Tightens.mapFailure {change : Failure → Failure}
    (hchange : ∀ f : Failure, f.Condemns → (change f).Condemns) (hr : strict.Tightens lax) :
    (mapFailure change strict).Tightens (mapFailure change lax) := by
  refine ⟨fun {c a c'} h => ?_⟩
  have hlax : lax c = .ok a c' := by
    simp only [Reader.mapFailure] at h
    split at h
    · next hc => exact hc.trans h
    · cases h
  rcases hr.agrees hlax with hstrict | ⟨f, c'', hfail, hf⟩
  · exact Or.inl (by simp only [Reader.mapFailure, hstrict])
  · exact Or.inr ⟨change f, c'', by simp only [Reader.mapFailure, hfail], hchange f hf⟩

/-- A note about where failures happen keeps a malformation one. -/
theorem Tightens.within {note : Note} (hr : strict.Tightens lax) :
    (within note strict).Tightens (within note lax) :=
  hr.mapFailure fun _ hf => hf

/-- Readers that are confined to the same body agree as they do on the body. -/
theorem Tightens.confined (start : Nat) (body : Bytes) (hr : strict.Tightens lax) :
    (confined start body strict).Tightens (confined start body lax) := by
  refine ⟨fun {c p c'} h => ?_⟩
  obtain ⟨a, left⟩ := p
  obtain ⟨inner, hlax, hleft, hc'⟩ := confined_eq_ok.1 h
  rcases hr.agrees hlax with hstrict | ⟨f, c'', hfail, hf⟩
  · exact Or.inl (confined_eq_ok.2 ⟨inner, hstrict, hleft, hc'⟩)
  · exact Or.inr ⟨f, { c with log := c''.log }, by simp only [Reader.confined, hfail], hf⟩

/-- Loops agree as their rounds do. -/
theorem Tightens.timesFrom {strict lax : Nat → Reader α} (h : ∀ i, (strict i).Tightens (lax i))
    (n index : Nat) (done : List α) :
    (timesFrom strict index done n).Tightens (timesFrom lax index done n) := by
  induction n generalizing index done with
  | zero => exact .refl _
  | succ n ih => exact (h index).bind fun a => ih (index + 1) (a :: done)

theorem Tightens.times {strict lax : Nat → Reader α} (h : ∀ i, (strict i).Tightens (lax i))
    (n : Nat) : (times n strict).Tightens (times n lax) := .timesFrom h n 0 []

/-- Tables agree as their rows do, since their count is the same. -/
theorem Tightens.table {strict lax : Nat → Reader α} (h : ∀ i, (strict i).Tightens (lax i)) :
    (table strict).Tightens (table lax) := .next _ fun n => .times h n.toNat

/-- The check fails only for something malformed. -/
def Lenient (check : Except Failure Unit) : Prop := ∀ f, check = .error f → f.Condemns

/-- A check that the lax reader need not make. -/
theorem Tightens.check {x : Except Failure Unit} (hx : Lenient x) (y : Except Failure Unit) :
    (liftM x : Reader Unit).Tightens (liftM y) := by
  refine ⟨fun {c u c'} h => ?_⟩
  cases y with
  | error f => cases h
  | ok u =>
    cases h
    cases x with
    | error f => exact Or.inr ⟨f, c, rfl, hx f rfl⟩
    | ok u => exact Or.inl rfl

/-- A malformation that is raised is found to be one. -/
theorem lenient_raise (how : Malformation) : Lenient (Fault.malformed how).raise := fun _ h => by
  cases h
  exact ⟨how, rfl⟩

/-- Checks one after another find nothing but malformations if each of them does. -/
theorem Lenient.bind {x y : Except Failure Unit} (hx : Lenient x) (hy : Lenient y) :
    Lenient (do x; y) := by
  cases x with
  | error f => exact fun _ h => hx _ h
  | ok u => exact hy

/-- A note about where a check fails keeps a malformation one. -/
theorem Lenient.inside {x : Except Failure Unit} {note : Note} (hx : Lenient x) :
    Lenient (Failure.inside note x) := by
  cases x with
  | error f => exact fun _ h => by cases h; exact hx f rfl
  | ok u => exact nofun

end Reader

open Reader

/-! ### Checks of offsets -/

namespace CodeMap

variable (map : CodeMap) (role : OffsetRole)

/-- The same map, with no offset verified. -/
def unverified : CodeMap := { map with verify := false }

/-- An offset that is not the start of an instruction is malformed. -/
theorem lenient_requireStart (n : Nat) : Lenient (map.requireStart role n) := by
  rw [requireStart]
  split
  · exact lenient_raise _
  · exact nofun

/-- An offset that is not the end of a range is malformed. -/
theorem lenient_requireEnd (n : Nat) : Lenient (map.requireEnd role n) := by
  rw [requireEnd]
  split
  · exact lenient_raise _
  · exact nofun

/-- A range that does not begin and end at boundaries of instructions is malformed. -/
theorem lenient_requireRange (start length : UInt16) :
    Lenient (map.requireRange role start length) :=
  (map.lenient_requireStart role _).bind (map.lenient_requireEnd role _)

/-- A branch that does not lead to the start of an instruction is malformed. -/
theorem lenient_requireTargets (i : Instruction) : Lenient (map.requireTargets i) := by
  rw [requireTargets]
  split
  · split
    · exact lenient_raise _
    · exact nofun
  · exact nofun

/-- Of all branches together no more is found than of each of them. -/
theorem lenient_requireAllTargets (instructions : List Instruction) :
    Lenient (map.requireAllTargets instructions) := by
  rw [requireAllTargets, List.forM_eq_forM]
  induction instructions with
  | nil => exact nofun
  | cons i rest ih => exact (map.lenient_requireTargets i).bind ih

/-- An exception handler is malformed if its range or its start is. -/
theorem lenient_check (h : ExceptionHandler) : Lenient (h.check map) := by
  have hoffsets : Lenient (do
      map.requireStart .handlerStart h.startPc.toNat
      map.requireEnd .handlerRange h.endPc.toNat
      map.requireStart .handlerEntry h.handlerPc.toNat) :=
    (map.lenient_requireStart _ _).bind ((map.lenient_requireEnd _ _).bind
      (map.lenient_requireStart _ _))
  rw [ExceptionHandler.check]
  split
  · exact (lenient_raise _).bind hoffsets
  · exact hoffsets

end CodeMap

namespace Surroundings

/-- The same surroundings, with no offset verified. -/
def unverified (s : Surroundings) : Surroundings :=
  { s with options := ⟨false⟩, code? := s.code?.map CodeMap.unverified }

/-- A check against the map of the code around, if there is code, finds nothing but malformations.
    -/
theorem lenient_ifCode {s : Surroundings} {check : CodeMap → Except Failure Unit}
    (h : ∀ map, Lenient (check map)) : Lenient (s.ifCode check) := by
  rw [ifCode]
  split
  · exact h _
  · exact nofun

/-- A look at the code, which is there or not no matter whether its offsets are verified. -/
theorem tightens_code {α : Type} (s : Surroundings) {ks kl : CodeMap → Reader α}
    (hk : ∀ map, (ks map).Tightens (kl map.unverified)) :
    ((liftM s.code : Reader CodeMap) >>= ks).Tightens
      ((liftM s.unverified.code : Reader CodeMap) >>= kl) := by
  rw [code, code, unverified]
  cases s.code? with
  | none => exact ⟨fun h => by cases h⟩
  | some map => exact hk map

end Surroundings

/-! ### Tables of code attributes -/

variable (s : Surroundings)

/-- Only the offset of an instruction that creates an object is verified in a verification type. -/
theorem VerificationType.tightens_read : (read s).Tightens (read s.unverified) := by
  refine .next _ fun tag => ?_
  split
  case h_9 =>
    exact .next _ fun offset => (Tightens.check (Surroundings.lenient_ifCode fun map =>
      map.lenient_requireStart _ _) _).map _
  all_goals exact .refl _

namespace StackMapFrame

/-- Only the types in a frame are verified as it is read, for its own offset depends on the frames
    before it. -/
theorem tightens_read : (read s).Tightens (read s.unverified) := by
  have htype := VerificationType.tightens_read s
  refine .next _ fun type => ?_
  dsimp only
  split_ifs
  · exact .refl _
  · exact htype.map _
  · exact .refl _
  · exact .next _ fun delta => htype.map _
  · exact .refl _
  · exact .refl _
  · exact .next _ fun delta => (Tightens.times (fun _ => htype) _).map _
  · exact .next _ fun delta => (Tightens.table fun _ => htype).bind fun locals =>
      (Tightens.table fun _ => htype).map _

/-- The offsets of frames are verified as they add up, frame by frame. -/
theorem tightens_readFrom (n index : Nat) (previous : Option Nat) (done : List StackMapFrame) :
    (readFrom s index previous done n).Tightens (readFrom s.unverified index previous done n) := by
  induction n generalizing index previous done with
  | zero => exact .refl _
  | succ n ih =>
    refine (tightens_read s).within.bind fun frame => .bind (.check ?_ _) fun _ => ih _ _ _
    exact (Surroundings.lenient_ifCode fun map => map.lenient_requireStart _ _).inside

theorem tightens_readTable : (readTable s).Tightens (readTable s.unverified) :=
  .next _ fun n => tightens_readFrom s n.toNat 0 none []

end StackMapFrame

/-- The start of a line is verified, and nothing else of it. -/
theorem LineNumber.tightens_read : (read s).Tightens (read s.unverified) :=
  .next _ fun _ => .next _ fun _ => (Tightens.check (Surroundings.lenient_ifCode fun map =>
    map.lenient_requireStart _ _) _).map _

/-- The range of a local variable is verified, and nothing else of it. -/
theorem LocalVariable.tightens_read : (read s).Tightens (read s.unverified) :=
  .next _ fun _ => .next _ fun _ => .next _ fun _ => .next _ fun _ => .next _ fun _ =>
    .next _ fun _ => .next _ fun _ => (Tightens.check (Surroundings.lenient_ifCode fun map =>
      map.lenient_requireRange _ _ _) _).map _

theorem LocalVarRange.tightens_read (map : CodeMap) : (read map).Tightens (read map.unverified) :=
  .next _ fun _ => .next _ fun _ => .next _ fun _ =>
    (Tightens.check (map.lenient_requireRange _ _ _) _).map _

/-- Of what a type annotation targets only offsets into the code are verified. -/
theorem TargetInfo.tightens_read (form : TargetForm) :
    (read s form).Tightens (read s.unverified form) := by
  cases form with
  | localVar =>
    exact s.tightens_code fun map => (Tightens.table fun _ => LocalVarRange.tightens_read map).map _
  | handler => exact .next _ fun index => s.tightens_code fun map => .refl _
  | offset =>
    exact .next _ fun position => s.tightens_code fun map =>
      (Tightens.check (map.lenient_requireStart _ _) _).map _
  | typeArgument =>
    exact .next _ fun position => .next _ fun argument => s.tightens_code fun map =>
      (Tightens.check (map.lenient_requireStart _ _) _).map _
  | _ => exact .refl _

/-- Type annotations are read alike, but for the offsets in their targets. -/
theorem TypeAnnotation.tightens_readList : (readList s).Tightens (readList s.unverified) := by
  refine .table fun index => .within <| .next _ fun offset => .next _ fun value => ?_
  split
  · exact .refl _
  · next target _ =>
    refine .ite (fun _ => .raise _) fun _ => ?_
    exact (TargetInfo.tightens_read s target.form).within.map _

/-- Exception handlers are read alike, but for their ranges and their starts. -/
theorem ExceptionHandler.tightens_readTable (pool : ConstantPool) (map : CodeMap) :
    (readTable pool map).Tightens (readTable pool map.unverified) :=
  .table fun _ => .within <| .next _ fun _ => .next _ fun _ => .next _ fun _ => .next _ fun _ =>
    (Tightens.check (map.lenient_check _) _).map _

/-! ### Attributes -/

/-- A malformation in an attribute is not mistaken for an attribute that is too short. -/
theorem Failure.Condemns.tooShort {kind : Attribute.Kind} {declared : UInt32} {start : Nat}
    {f : Failure} (hf : f.Condemns) : (NamedAttribute.tooShort kind declared start f).Condemns := by
  obtain ⟨how, hfault⟩ := hf
  rw [NamedAttribute.tooShort, hfault]
  exact ⟨how, hfault⟩

/-- A list of attributes is read alike if the bodies of all kinds are. -/
theorem NamedAttribute.tightens_readList {strict lax : Attribute.Kind → Reader Attribute}
    (h : ∀ kind, (strict kind).Tightens (lax kind)) :
    (readList s strict).Tightens (readList s.unverified lax) := by
  refine .table fun _ => .next _ fun offset => .next _ fun nameIndex => .next _ fun name =>
    .next _ fun length => .next _ fun start => .next _ fun body => ?_
  split
  · exact .refl _
  · next kind _ =>
    refine .ite (fun _ => ?_) fun _ => .refl _
    -- Only a body that is cut off is reported as a wrong length; a malformed one stays malformed.
    refine .next _ fun _ => (Tightens.within (.mapFailure (fun f hf => hf.tooShort) ?_)).map _
    exact ((h kind).confined start body).map _

namespace Attribute

/-- The body of an attribute that holds no others is read alike. -/
theorem tightens_readLeaf (kind : Kind) :
    (readLeaf s kind).Tightens (readLeaf s.unverified kind) := by
  cases kind with
  | stackMapTable => exact (StackMapFrame.tightens_readTable s).map _
  | lineNumberTable => exact (Tightens.table fun _ => LineNumber.tightens_read s).map _
  | localVariableTable | localVariableTypeTable =>
    exact (Tightens.table fun _ => LocalVariable.tightens_read s).map _
  | runtimeVisibleTypeAnnotations | runtimeInvisibleTypeAnnotations =>
    have h := TypeAnnotation.tightens_readList s
    exact h.map _
  | _ => exact .refl _

theorem tightens_readInnerList : (readInnerList s).Tightens (readInnerList s.unverified) :=
  NamedAttribute.tightens_readList s (tightens_readLeaf s)

end Attribute

/-- Code is read alike, but for its branches, its handlers and the attributes in it. -/
theorem Code.tightens_read : (read s).Tightens (read s.unverified) := by
  refine .next _ fun maxStack => .next _ fun maxLocals => .next _ fun length => .next _ fun _ =>
    .next _ fun instructions => ?_
  let map := CodeMap.ofInstructions length.toNat instructions s.options.verifyCodeOffsets
  refine .bind (.check (map.lenient_requireAllTargets instructions) _) fun _ =>
    .bind (ExceptionHandler.tightens_readTable s.pool map) fun handlers => ?_
  exact (Attribute.tightens_readInnerList (s.inCode { map with handlers := handlers.length })).map _

/-- A component of a record is read alike, as are its attributes. -/
theorem RecordComponent.tightens_read : (read s).Tightens (read s.unverified) :=
  .next _ fun _ => .next _ fun _ => .next _ fun _ => .next _ fun _ =>
    (Attribute.tightens_readInnerList (s.moveTo .recordComponent)).within.map _

/-- All lists of attributes are read alike. -/
theorem Attribute.tightens_readList : (readList s).Tightens (readList s.unverified) := by
  refine NamedAttribute.tightens_readList s fun kind => ?_
  have hleaf := tightens_readLeaf s kind
  cases kind with
  | code => exact (Code.tightens_read s).map _
  | record => exact (Tightens.table fun _ => RecordComponent.tightens_read s).map _
  | _ => exact hleaf

/-! ### Class files -/

/-- A field or a method is read alike. -/
theorem Member.tightens_read : (read s).Tightens (read s.unverified) :=
  .next _ fun _ => .next _ fun _ => .next _ fun _ => .next _ fun _ => .next _ fun _ =>
    .next _ fun _ => ((Attribute.tightens_readList s).map _).within.map _

/-- A class file that is read without verifying offsets is read with it, too, or malformed. -/
theorem ClassFile.tightens_read : (read ⟨true⟩).Tightens (read ⟨false⟩) := by
  refine .next _ fun found => .ite (fun _ => .raise _) fun _ => ?_
  refine .next _ fun minor => .next _ fun major => .next _ fun pool => .next _ fun _ =>
    .next _ fun accessFlags => .next _ fun thisClass => .next _ fun name =>
      .next _ fun superClass => .next _ fun _ => .next _ fun interfaces => ?_
  let s (location : Location) : Surroundings := ⟨pool, ⟨true⟩, location, interfaces.length, none⟩
  refine .map (.within ?_) _
  exact .bind (.table fun _ => Member.tightens_read (s .field)) fun fields =>
    .bind (.table fun _ => Member.tightens_read (s .method)) fun methods =>
      (Attribute.tightens_readList (s .classFile)).map _

end ClassFormat
