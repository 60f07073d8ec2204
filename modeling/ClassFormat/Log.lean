import ClassFormat.Attribute.Kind
import ClassFormat.Text.Quoted

/-!
# The log

What is worth telling while a class file is read and checked: how important it is
(`Level`), which part tells it (`Source`), and what it is (`Event`, for the events of
reading).
-/

namespace ClassFormat

namespace Log

/-- How important a line is, the most important first. -/
inductive Level where
  | error
  | info
  | debug
  | trace
  deriving DecidableEq

/-- The name of a level. -/
def Level.name : Level → String
  | error => "ERROR"
  | info => "INFO"
  | debug => "DEBUG"
  | trace => "TRACE"

/-- The rank of a level, the most important being the least. -/
def Level.rank : Level → Nat
  | error => 0
  | info => 1
  | debug => 2
  | trace => 3

/-- The part that tells something. -/
inductive Source where
  /-- The command. -/
  | command
  /-- The search for class files. -/
  | inputs
  /-- The attributes of a class file. -/
  | attributes
  /-- The rest of a class file. -/
  | classes
  deriving DecidableEq

/-- The name of a part in the lines of the log. -/
def Source.name : Source → String
  | command => "classlib"
  | inputs => "classlib::input"
  | attributes => "class_file::attribute"
  | classes => "class_file::class"

/-- A line of the log. -/
structure Line where
  level : Level
  source : Source
  message : String

/-- The line as it is written. -/
def Line.render (line : Line) : String :=
  s!"[{line.level.name} {line.source.name}] {line.message}"

/-- What happens while a class file is read. -/
inductive Event where
  /-- The constant pool has been read. -/
  | pool (slots : Nat) (major minor : UInt16)
  /-- The attributes of a member are about to be read. -/
  | member (location : Location) (name descriptor : Text)
  /-- An attribute is about to be decoded. -/
  | decoding (kind : Attribute.Kind) (length : UInt32) (offset : Nat)
  /-- An attribute is kept as bytes, for it is not allowed where it is. -/
  | misplaced (kind : Attribute.Kind) (offset : Nat) (location : Location)
  /-- An attribute is kept as bytes, for its name is unknown. -/
  | unknown (name : Text) (length : UInt32) (offset : Nat)
  deriving DecidableEq

/-- The line that tells an event. -/
def Event.line : Event → Line
  | pool slots major minor =>
    ⟨.trace, .classes,
      s!"read constant pool with {slots} slots, class file version {major.toNat}.{minor.toNat}"⟩
  | member location name descriptor =>
    ⟨.trace, .classes, s!"reading {location.name} {name.lossy}:{descriptor.lossy}"⟩
  | decoding kind length offset =>
    ⟨.trace, .attributes,
      s!"reading attribute {kind.name} ({length.toNat} bytes) at offset {offset}"⟩
  | misplaced kind offset location =>
    ⟨.debug, .attributes,
      s!"attribute {kind.name} at offset {offset} is not allowed on a {location.name}, " ++
        "keeping it as raw bytes"⟩
  | unknown name length offset =>
    ⟨.debug, .attributes,
      s!"unknown attribute {Quote.text.renderString name.lossy} ({length.toNat} bytes) " ++
        s!"at offset {offset}, keeping it as raw bytes"⟩

end Log

end ClassFormat
