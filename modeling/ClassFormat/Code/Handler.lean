import ClassFormat.ConstantPool.Reference
import ClassFormat.Code.Map
import ClassFormat.Writer

/-!
# Exception handlers

The rows of the exception table of a code array.
-/

namespace ClassFormat

/-- An exception handler: in a range of code, exceptions of a class lead to an offset. -/
structure ExceptionHandler where
  startPc : UInt16
  /-- Where the range ends, exclusive. -/
  endPc : UInt16
  handlerPc : UInt16
  /-- The `Class` of the exceptions, or 0 for a handler of all exceptions. -/
  catchType : UInt16
  deriving DecidableEq

namespace ExceptionHandler

/-- Checks the code offsets of a handler. -/
def check (code : CodeMap) (h : ExceptionHandler) : Except Failure Unit := do
  if code.verify && h.endPc ≤ h.startPc then
    (Fault.malformed (.emptyHandlerRange h.startPc h.endPc)).raise
  code.requireStart .handlerStart h.startPc.toNat
  code.requireEnd .handlerRange h.endPc.toNat
  code.requireStart .handlerEntry h.handlerPc.toNat

/-- Reads a handler. -/
def read (pool : ConstantPool) (code : CodeMap) : Reader ExceptionHandler := do
  let h : ExceptionHandler :=
    ⟨← Reader.u2, ← Reader.u2, ← Reader.u2, ← pool.readOptionalIndex .classref⟩
  h.check code
  return h

/-- Reads the exception table of a code array. -/
def readTable (pool : ConstantPool) (code : CodeMap) : Reader (List ExceptionHandler) :=
  Reader.table fun index => Reader.within (.inHandler index) (read pool code)

/-- The bytes of a handler. -/
def write (h : ExceptionHandler) : Bytes :=
  Writer.u2 h.startPc ++ Writer.u2 h.endPc ++ Writer.u2 h.handlerPc ++ Writer.u2 h.catchType

/-- The bytes of an exception table. -/
def writeTable (handlers : List ExceptionHandler) : Written :=
  Writer.table (fun h => .ok h.write) handlers

/-- The handler in words. -/
def describe (pool : ConstantPool) (h : ExceptionHandler) : Except Failure String := do
  let caught ← if h.catchType = 0 then pure "any" else Text.lossy <$> pool.className h.catchType
  return s!"handler [{h.startPc.toNat}, {h.endPc.toNat}) -> {h.handlerPc.toNat} for {caught}"

end ExceptionHandler

end ClassFormat
