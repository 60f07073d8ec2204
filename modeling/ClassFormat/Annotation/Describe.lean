import ClassFormat.Annotation.Basic
import ClassFormat.ConstantPool.Describe

/-!
# Annotations in words

An annotation as it could be written in a source file, with the descriptor of its type.
-/

namespace ClassFormat

mutual

/-- A value in words. -/
def ElementValue.describe (pool : ConstantPool) : ElementValue → Except Failure String
  | .constant .string index => return Quote.text.renderString (← pool.text index).lossy
  | .constant .classLiteral index => return (← pool.text index).lossy ++ ".class"
  | .constant _ index => pool.describe index
  | .enum typeIndex nameIndex =>
    return (← pool.text typeIndex).lossy ++ "." ++ (← pool.text nameIndex).lossy
  | .nested a => Annotation.describe pool a
  | .array values => ElementValue.describeAll pool [] values

/-- Values in words between braces, after those in `done`, the last one first. -/
def ElementValue.describeAll (pool : ConstantPool) (done : List String) :
    List ElementValue → Except Failure String
  | [] => return "\x7b" ++ ", ".intercalate done.reverse ++ "\x7d"
  | value :: rest => do
    ElementValue.describeAll pool ((← ElementValue.describe pool value) :: done) rest

/-- Elements in words between parentheses, after those in `done`, the last one first. -/
def ElementPair.describeAll (pool : ConstantPool) (done : List String) :
    List ElementPair → Except Failure String
  | [] => return Display.parenthesised done.reverse
  | ⟨nameIndex, value⟩ :: rest => do
    let name ← pool.text nameIndex
    let value ← ElementValue.describe pool value
    ElementPair.describeAll pool ((name.lossy ++ "=" ++ value) :: done) rest

/-- An annotation in words. -/
def Annotation.describe (pool : ConstantPool) : Annotation → Except Failure String
  | ⟨typeIndex, pairs⟩ => do
    let type ← pool.text typeIndex
    return "@" ++ type.lossy ++ (← ElementPair.describeAll pool [] pairs)

end

/-- Annotations in words, separated by spaces. -/
def Annotation.describeList (pool : ConstantPool) (annotations : List Annotation) :
    Except Failure String :=
  return " ".intercalate (← annotations.mapM fun a => a.describe pool)

end ClassFormat
