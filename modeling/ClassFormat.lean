import ClassFormat.AccessFlags
import ClassFormat.Annotation.Basic
import ClassFormat.Annotation.Codec
import ClassFormat.Annotation.Describe
import ClassFormat.Annotation.TargetInfo
import ClassFormat.Annotation.TargetType
import ClassFormat.Annotation.TypeAnnotation
import ClassFormat.Annotation.TypePath
import ClassFormat.Archive.Basic
import ClassFormat.Archive.Directory
import ClassFormat.Archive.Member
import ClassFormat.Attribute.Basic
import ClassFormat.Attribute.Describe
import ClassFormat.Attribute.Kind
import ClassFormat.Attribute.ModuleDescriptor
import ClassFormat.Attribute.Read
import ClassFormat.Attribute.Row
import ClassFormat.Attribute.Write
import ClassFormat.BigEndian
import ClassFormat.Checksum
import ClassFormat.ClassFile.Basic
import ClassFormat.ClassFile.Edit
import ClassFormat.ClassFile.Read
import ClassFormat.ClassFile.Summary
import ClassFormat.ClassFile.Write
import ClassFormat.Code.Handler
import ClassFormat.Code.Map
import ClassFormat.Command.Arguments
import ClassFormat.Command.Run
import ClassFormat.Constant
import ClassFormat.ConstantPool.Basic
import ClassFormat.ConstantPool.Codec
import ClassFormat.ConstantPool.Describe
import ClassFormat.ConstantPool.Edit
import ClassFormat.ConstantPool.Reference
import ClassFormat.Decimal.Binary
import ClassFormat.Decimal.Shortest
import ClassFormat.Failure.Basic
import ClassFormat.Failure.Message
import ClassFormat.FileTree
import ClassFormat.Instruction.Basic
import ClassFormat.Instruction.Decode
import ClassFormat.Instruction.Encode
import ClassFormat.Instruction.Listing
import ClassFormat.Location
import ClassFormat.Log
import ClassFormat.Main
import ClassFormat.Opcode
import ClassFormat.Proofs.Accounting
import ClassFormat.Proofs.Annotation.Element
import ClassFormat.Proofs.Annotation.Nesting
import ClassFormat.Proofs.Annotation.TargetInfo
import ClassFormat.Proofs.Annotation.TypeAnnotation
import ClassFormat.Proofs.Attribute.Accounting
import ClassFormat.Proofs.Attribute.Codec
import ClassFormat.Proofs.Attribute.Context
import ClassFormat.Proofs.Attribute.Describe
import ClassFormat.Proofs.Attribute.Framing
import ClassFormat.Proofs.Attribute.Leaf
import ClassFormat.Proofs.Attribute.Row
import ClassFormat.Proofs.Attribute.Site
import ClassFormat.Proofs.Attribute.Truncation
import ClassFormat.Proofs.ClassFile.Accounting
import ClassFormat.Proofs.ClassFile.Codec
import ClassFormat.Proofs.ClassFile.Context
import ClassFormat.Proofs.ClassFile.Editing
import ClassFormat.Proofs.ClassFile.Framing
import ClassFormat.Proofs.ClassFile.Length
import ClassFormat.Proofs.ClassFile.Preservation
import ClassFormat.Proofs.ClassFile.Reordering
import ClassFormat.Proofs.ClassFile.RoundTrip
import ClassFormat.Proofs.ClassFile.Soundness
import ClassFormat.Proofs.ClassFile.Summary
import ClassFormat.Proofs.ClassFile.Truncation
import ClassFormat.Proofs.ClassFile.Undecoded
import ClassFormat.Proofs.ClassFile.Validation
import ClassFormat.Proofs.ClassFile.Verification
import ClassFormat.Proofs.Code.Lookup
import ClassFormat.Proofs.Code.Offset
import ClassFormat.Proofs.ConstantPool.Alike
import ClassFormat.Proofs.ConstantPool.Describe
import ClassFormat.Proofs.ConstantPool.Editing
import ClassFormat.Proofs.ConstantPool.Joining
import ClassFormat.Proofs.ConstantPool.Layout
import ClassFormat.Proofs.ConstantPool.Lookup
import ClassFormat.Proofs.ConstantPool.Reference
import ClassFormat.Proofs.ConstantPool.RoundTrip
import ClassFormat.Proofs.ConstantPool.Spelling
import ClassFormat.Proofs.Failing
import ClassFormat.Proofs.Framing
import ClassFormat.Proofs.Instruction.Encodable
import ClassFormat.Proofs.Instruction.Framing
import ClassFormat.Proofs.Instruction.Relocation
import ClassFormat.Proofs.Instruction.Removal
import ClassFormat.Proofs.Instruction.Sequence
import ClassFormat.Proofs.Instruction.Spelling
import ClassFormat.Proofs.List
import ClassFormat.Proofs.Reading
import ClassFormat.Proofs.StackMap
import ClassFormat.Proofs.StackMap.Offset
import ClassFormat.Proofs.Text.Basic
import ClassFormat.Proofs.Text.Expansion
import ClassFormat.Proofs.Text.Joined
import ClassFormat.Proofs.Text.ModifiedUtf8
import ClassFormat.Proofs.Text.Sequence
import ClassFormat.Proofs.Writing
import ClassFormat.Reader
import ClassFormat.StackMap
import ClassFormat.Surroundings
import ClassFormat.Text.Basic
import ClassFormat.Text.Display
import ClassFormat.Text.Hidden
import ClassFormat.Text.ModifiedUtf8
import ClassFormat.Text.Quoted
import ClassFormat.Text.Utf8
import ClassFormat.Writer
