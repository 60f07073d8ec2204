import ClassFormat.AccessFlags
import ClassFormat.Attribute.Describe
import ClassFormat.ClassFile.Basic
import ClassFormat.Instruction.Listing

/-!
# Summaries

Everything about a class file as lines for a reader. A class file that has been edited
may hold references that do not resolve; the lines before the first such reference are
written all the same.

* `Report`: a computation that writes lines;
* `ClassFile.summary`: the report on a class file;
* `ClassFile.summarize`: its lines, and how it ended.
-/

namespace ClassFormat

/-- A computation that writes lines and may fail. -/
abbrev Report := EStateM Failure (Array String)

namespace Report

/-- Writes a line, `depth` levels deep. -/
def line (depth : Nat) (text : String) : Report Unit :=
  modify fun lines => lines.push (String.join (List.replicate depth "  ") ++ text)

/-- Adds a note to the failures of a report. -/
def within (note : Note) (report : Report Unit) : Report Unit := fun lines =>
  match report lines with
  | .ok _ lines => .ok () lines
  | .error f lines => .error (f.within note) lines

end Report

mutual

/-- The lines of an attribute. -/
def NamedAttribute.report (pool : ConstantPool) (depth : Nat) : NamedAttribute → Report Unit
  | ⟨nameIndex, content⟩ => do
    let name ← pool.text nameIndex
    Report.line depth (name.lossy ++ ": " ++ (← content.describe pool))
    Attribute.reportInside pool depth content

/-- The lines of what is inside an attribute. -/
def Attribute.reportInside (pool : ConstantPool) (depth : Nat) : Attribute → Report Unit
  | .code body => Code.report pool (depth + 1) body
  -- The attributes of record components are not listed.
  | _ => return

/-- The lines of code: its instructions, its exception handlers and its attributes. -/
def Code.report (pool : ConstantPool) (depth : Nat) : Code → Report Unit
  | ⟨_, _, instructions, handlers, attributes⟩ => do
    let listing ← Instruction.listing pool instructions
    listing.forM (Report.line depth)
    handlers.forM fun h => do Report.line depth (← h.describe pool)
    NamedAttribute.reportAll pool depth attributes

/-- The lines of attributes. -/
def NamedAttribute.reportAll (pool : ConstantPool) (depth : Nat) : List NamedAttribute → Report Unit
  | [] => return
  | a :: rest => do
    NamedAttribute.report pool depth a
    NamedAttribute.reportAll pool depth rest

end

/-- The lines of a field or a method. -/
def Member.report (pool : ConstantPool) (location : Location) (owner : AccessFlags.Owner)
    (m : Member) : Report Unit := do
  let name ← m.name pool
  let descriptor ← m.descriptor pool
  Report.line 0 s!"{location.name} {name.lossy}:{descriptor.lossy}"
  Report.line 1 ("access: " ++ AccessFlags.describe owner m.accessFlags)
  Report.within (.inMember location name descriptor) (NamedAttribute.reportAll pool 1 m.attributes)

namespace ClassFile

/-- The lines of the head of a class file. -/
def reportHead (c : ClassFile) : Report Unit := do
  Report.line 0 ("class " ++ (← c.name).lossy)
  Report.line 1 s!"version: {c.majorVersion.toNat}.{c.minorVersion.toNat}"
  Report.line 1 ("access: " ++ AccessFlags.describe .classFile c.accessFlags)
  match ← c.superName? with
  | some name => Report.line 1 ("extends: " ++ name.lossy)
  | none => return

/-- The lines of a class file. -/
def summary (c : ClassFile) : Report Unit := do
  c.reportHead
  (← c.interfaceNames).forM fun name => Report.line 1 ("implements: " ++ name.lossy)
  Report.line 0 s!"constant pool ({c.pool.count} slots):"
  c.pool.entries.forM fun (index, _) => do
    Report.line 1 (s!"#{index.toNat} = " ++ (← c.pool.describe index))
  c.fields.forM (Member.report c.pool .field .field)
  c.methods.forM (Member.report c.pool .method .method)
  Report.line 0 "attributes:"
  NamedAttribute.reportAll c.pool 1 c.attributes

/-- The lines that are written for a class file, and how the report ended. -/
def summarize (c : ClassFile) : Array String × Except Failure Unit :=
  match c.summary #[] with
  | .ok _ lines => (lines, .ok ())
  | .error f lines => (lines, .error f)

end ClassFile

end ClassFormat
