import ClassFormat.Text.Display

/-!
# Access flags

The sixteen bits that say how a declaration may be used. The meaning of some bits
depends on what they are the flags of, the `Owner`.

* `AccessFlags.Owner.words`: the bits that mean something for an owner;
* `AccessFlags.describe`: the words of the bits that are set, the others as a number.
-/

namespace ClassFormat

namespace AccessFlags

/-- What the flags belong to. -/
inductive Owner where
  | classFile
  | innerClass
  | field
  | method
  | parameter
  | module
  | moduleRequires
  /-- An `exports` or `opens` of a module. -/
  | moduleExportsOpens
  deriving DecidableEq

/-- The bits that have a meaning for the owner, each with its word, in the order in which
    they are listed. -/
def Owner.words : Owner → List (UInt16 × String)
  | .classFile =>
    [(0x0001, "public"), (0x0010, "final"), (0x0020, "super"), (0x0200, "interface"),
      (0x0400, "abstract"), (0x1000, "synthetic"), (0x2000, "annotation"), (0x4000, "enum"),
      (0x8000, "module")]
  | .innerClass =>
    [(0x0001, "public"), (0x0002, "private"), (0x0004, "protected"), (0x0008, "static"),
      (0x0010, "final"), (0x0200, "interface"), (0x0400, "abstract"), (0x1000, "synthetic"),
      (0x2000, "annotation"), (0x4000, "enum")]
  | .field =>
    [(0x0001, "public"), (0x0002, "private"), (0x0004, "protected"), (0x0008, "static"),
      (0x0010, "final"), (0x0040, "volatile"), (0x0080, "transient"), (0x1000, "synthetic"),
      (0x4000, "enum")]
  | .method =>
    [(0x0001, "public"), (0x0002, "private"), (0x0004, "protected"), (0x0008, "static"),
      (0x0010, "final"), (0x0020, "synchronized"), (0x0040, "bridge"), (0x0080, "varargs"),
      (0x0100, "native"), (0x0400, "abstract"), (0x0800, "strict"), (0x1000, "synthetic")]
  | .parameter => [(0x0010, "final"), (0x1000, "synthetic"), (0x8000, "mandated")]
  | .module => [(0x0020, "open"), (0x1000, "synthetic"), (0x8000, "mandated")]
  | .moduleRequires =>
    [(0x0020, "transitive"), (0x0040, "static_phase"), (0x1000, "synthetic"), (0x8000, "mandated")]
  | .moduleExportsOpens => [(0x1000, "synthetic"), (0x8000, "mandated")]

/-- The bits of `flags` that have no meaning for the owner. -/
def unknown (owner : Owner) (flags : UInt16) : UInt16 :=
  owner.words.foldl (fun left (bit, _) => left &&& ~~~bit) flags

/-- The words of the bits that are set, separated by spaces, the bits without a meaning
    as one number at the end. -/
def describe (owner : Owner) (flags : UInt16) : String :=
  let words := owner.words.filterMap fun (bit, word) => if flags &&& bit = 0
    then none else some word
  let rest := unknown owner flags
  " ".intercalate (words ++ if rest = 0 then [] else [Display.hex 4 rest.toNat])

/-- One bit means different things for a class and for a method. -/
example : describe .classFile 0x21 = "public super" ∧
    describe .method 0x21 = "public synchronized" := by
  decide +kernel

/-- A bit without a meaning is shown as a number. -/
example : describe .classFile 0x8 = "0x0008" ∧ describe .method 0 = "" := by decide +kernel

end AccessFlags

end ClassFormat
