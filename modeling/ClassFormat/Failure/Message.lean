import ClassFormat.Failure.Basic

/-!
# Failures in words

The wording of every fault and note, and `Failure.message`, the whole chain in one line.
-/

namespace ClassFormat

/-- Kinds in a sentence: `Integer, Float or String`. -/
def Constant.Kind.alternatives (kinds : List Kind) : String :=
  match kinds.map name, kinds.getLast? with
  | [], _ | _, none => "nothing"
  | [single], _ => single
  | names, some last => ", ".intercalate names.dropLast ++ " or " ++ last.name

/-- Why the index is refused. -/
def BadIndex.message : BadIndex → String
  | zero => "index zero is reserved"
  | outOfRange count => s!"out of range for constant_pool_count {count}"
  | unusable => "unusable slot after a Long or Double entry"
  | wrongKind found => s!"found {found.name}"

/-- What the offset is used for. -/
def OffsetRole.message : OffsetRole → String
  | handlerStart => "exception handler start_pc"
  | handlerEntry => "exception handler handler_pc"
  | handlerRange => "exception handler range"
  | lineNumber => "line number start_pc"
  | localVariable => "local variable"
  | localVarTarget => "localvar_target"
  | offsetTarget => "offset_target"
  | typeArgumentTarget => "type_argument_target"
  | stackMapFrame => "stack map frame"
  | uninitialized => "uninitialized variable offset"

/-- Which byte it is. -/
def ReservedByte.message : ReservedByte → String
  | tableSwitchPadding => "tableswitch padding"
  | lookupSwitchPadding => "lookupswitch padding"
  | invokeInterfaceFourth => "fourth operand byte of invokeinterface"
  | invokeDynamicThird => "third operand byte of invokedynamic"
  | invokeDynamicFourth => "fourth operand byte of invokedynamic"

/-- How the rules are broken. -/
def Malformation.message : Malformation → String
  | codeLength length => s!"code_length must be between 1 and 65535, got {length}"
  | instructionCut offset =>
    s!"instruction at code offset {offset} extends past the end of the code array"
  | reservedByte which found => s!"{which.message} must be zero, got {found.toNat}"
  | arrayType code => s!"invalid array type {code.toNat} for newarray"
  | switchBounds low high => s!"tableswitch with low {low.toInt} greater than high {high.toInt}"
  | switchSize low high offsets =>
    let needed := high.toInt - low.toInt + 1
    s!"tableswitch from {low.toInt} to {high.toInt} needs {needed} offsets, got {offsets}"
  | negativePairs count => s!"lookupswitch with negative npairs {count.toInt}"
  | zeroCount => "invokeinterface count must not be zero"
  | zeroDimensions => "multianewarray dimensions must not be zero"
  | operandMismatch operands mnemonic layout =>
    s!"operands {operands.display} don't fit opcode {mnemonic} with operand layout {layout.display}"
  | branchToNowhere mnemonic offset target =>
    s!"{mnemonic} at code offset {offset.toNat} branches to {target}, " ++
      "which is not the start of an instruction"
  | lostTarget mnemonic offset target =>
    s!"branch target {target} of the {mnemonic} recorded at offset {offset.toNat} " ++
      "is not the recorded offset of any instruction"
  | ambiguousTarget mnemonic offset target =>
    s!"branch target {target} of the {mnemonic} recorded at offset {offset.toNat} " ++
      "is recorded by more than one instruction"
  | notAnInstruction role offset length =>
    s!"{role.message} {offset} is not the start of an instruction, code_length is {length}"
  | notAnEnd role offset length =>
    s!"{role.message} end {offset} is neither the start of an instruction nor code_length {length}"
  | emptyHandlerRange startPc endPc =>
    s!"exception handler range from {startPc.toNat} to {endPc.toNat} is empty"
  | offsetOutsideCode location =>
    s!"code offsets are only allowed in attributes of a Code attribute, not on a {location.name}"
  | frameType type => s!"reserved stack map frame type {type.toNat}"
  | verificationType tag => s!"unknown verification type tag {tag.toNat}"
  | sameFrameDelta delta => s!"offset_delta {delta.toNat} too large for a same frame"
  | sameOneItemFrameDelta delta =>
    s!"offset_delta {delta.toNat} too large for a same_locals_1_stack_item frame"
  | choppedLocals count => s!"a chop frame removes one to three locals, not {count.toNat}"
  | appendedLocals count => s!"an append frame adds one to three locals, not {count}"
  | elementDepth => "element values nested deeper than 256 levels"
  | elementTag tag offset =>
    let shown := Quote.character.renderString (Char.ofNat tag.toNat).toString
    s!"unknown element_value tag {shown} at offset {offset}"
  | supertypeIndex index interfaces =>
    s!"supertype_index {index.toNat} is out of bounds for {interfaces} interfaces"
  | handlerIndex index handlers =>
    s!"exception_table_index {index.toNat} is out of bounds for " ++
      s!"an exception table of length {handlers}"
  | throwsIndex index exceptions =>
    s!"throws_type_index {index.toNat} is out of bounds for {exceptions} declared exceptions"
  | pathKind kind => s!"type_path_kind not in range from 0 to 3, got {kind.toNat}"
  | pathArgument step argument =>
    s!"for {step.display}, type_argument_index must be zero, got {argument.toNat}"
  | targetForm target found =>
    s!"target type {target.display} needs a {target.form.name} target_info, got {found.name}"
  | attributeName index kind =>
    s!"name_index {index.toNat} of a {kind.name} attribute doesn't refer to " ++
      Quote.text.renderString kind.name
  | trailingData length offset =>
    s!"{length} bytes of trailing data after the class file at offset {offset}"

/-- How the rules are broken. -/
def ConstantDefect.message : ConstantDefect → String
  | emptyPool => "constant_pool_count must be at least 1"
  | text defect => s!"invalid modified utf8: {defect.message}"
  | noSecondSlot kind => s!"{kind.name} entry in the last slot has no room for its second slot"
  | referenceKind kind => s!"unknown reference_kind {kind.toNat} of MethodHandle"

/-- What is wrong. -/
def Fault.message : Fault → String
  | truncated offset needed available =>
    s!"unexpected end of data at offset {offset}: needed {needed} bytes, only {available} available"
  | constantIndex index expected problem =>
    s!"bad constant pool index {index.toNat}: {problem.message}, " ++
      s!"expected {Constant.Kind.alternatives expected}"
  | lengthMismatch kind declared actual =>
    s!"attribute {Quote.text.renderString kind.name} " ++
      s!"declares a length of {declared.toNat} bytes, but its body is {actual} bytes long"
  | unknownTargetType value => s!"unknown type annotation target_type {Display.hex 2 value.toNat}"
  | misplacedTargetType value location =>
    s!"type annotation target_type {Display.hex 2 value.toNat} is not allowed on a {location.name}"
  | opcode op offset => s!"invalid opcode {Display.hex 2 op.toNat} at code offset {offset}"
  | malformed how => s!"malformed attribute: {how.message}"
  | constant index defect =>
    s!"malformed constant pool entry at index {index.toNat}: {defect.message}"
  | constantTag tag index => s!"invalid constant pool tag {tag.toNat} at index {index.toNat}"
  | magic found => s!"invalid magic: got {Display.hex 1 found.toNat}, expected 0xCAFEBABE"
  | bootstrapMethod index count =>
    s!"bootstrap method index {index.toNat} out of bounds for {count} bootstrap methods"

/-- The type of a field of the width. -/
def CountWidth.name : CountWidth → String
  | u1 => "u8"
  | u2 => "u16"
  | u4 => "u32"

/-- The name of the part. -/
def ModulePart.name : ModulePart → String
  | requires => "requires"
  | exports => "exports"
  | opens => "opens"
  | uses => "uses"
  | provides => "provides"

/-- The note in words. -/
def Note.message : Note → String
  | readingPool => "while reading the constant pool"
  | readingConstant index offset =>
    s!"while reading constant pool entry at index {index}, at offset {offset}"
  | inConstant index constant =>
    s!"in constant pool entry at index {index.toNat}: {constant.display}"
  | inDynamicConstant index => s!"in constant pool entry {index.toNat}"
  | readingThisClass => "while reading this_class"
  | readingSuperClass => "while reading super_class"
  | readingInterfaces => "while reading interfaces"
  | inClass name => s!"in class {name.lossy}"
  | inMember location name descriptor => s!"in {location.name} {name.lossy}:{descriptor.lossy}"
  | readingAttributeName offset => s!"while reading the name of the attribute at offset {offset}"
  | readingAttributeBody name offset =>
    s!"while reading attribute {Quote.text.renderString name.lossy} at offset {offset}"
  | readingAttribute kind offset => s!"while reading attribute {kind.name} at offset {offset}"
  | decodingInstruction offset => s!"while decoding the instruction at code offset {offset}"
  | inHandler index => s!"in exception table entry {index}"
  | readingFrame index => s!"while reading stack map frame {index}"
  | inFrame index => s!"in stack map frame {index}"
  | inBootstrapMethod index => s!"in bootstrap method {index}"
  | inRecordComponent name => s!"in record component {Quote.text.renderString name.lossy}"
  | inModulePart part => s!"in {part.name}"
  | describingModule => "while describing module"
  | inParameterAnnotations parameter => s!"in annotations of parameter {parameter}"
  | readingAnnotationAt index => s!"while reading annotation {index}"
  | readingAnnotationType => "while reading the type of an annotation"
  | inAnnotationOf type => s!"in annotation {Quote.text.renderString type.lossy}"
  | inElementValue tag offset =>
    let shown := Quote.character.renderString (Char.ofNat tag.toNat).toString
    s!"in element value with tag {shown} at offset {offset}"
  | readingTypeAnnotationAt index => s!"while reading type annotation {index}"
  | inTargetInfo target offset => s!"in target_info of {target.display} at offset {offset}"
  | resolvedInstead constant kind => s!"resolved {constant.display} instead of {kind.name}"
  | replacingConstant index => s!"while replacing constant pool entry at index {index.toNat}"
  | poolFull constant index =>
    s!"constant pool is full: cannot add {constant.display} at index {index}"
  | slotsDiffer old index new =>
    s!"cannot replace {old.name} entry at index {index.toNat} with {new.name}: " ++
      "the number of slots taken up differs"
  | namelessAttribute => "an attribute of unknown kind needs an explicit name_index"
  | writingConstant index => s!"while writing constant pool entry at index {index.toNat}"
  | textTooLong => "modified utf8 form of string is longer than 65535 bytes"
  | writingMember location name => s!"while writing {location.name} {name}"
  | writingAttribute kind =>
    "while writing attribute " ++ (kind.map Attribute.Kind.name).getD "with unknown name"
  | encodingInstruction position =>
    s!"while encoding the instruction at code offset {position}"
  | narrowConstantIndex =>
    "ldc can only refer to the first 255 constant pool entries, use ldc_w instead"
  | narrowLocalIndex => "local variable index needs a wide prefix"
  | narrowIncrementIndex => "iinc index needs a wide prefix"
  | narrowIncrementAmount amount => s!"iinc constant {amount.toInt} needs a wide prefix"
  | shortBranch displacement => s!"branch offset {displacement} does not fit into 16 bits"
  | wideBranch displacement => s!"branch offset {displacement} does not fit into 32 bits"
  | tooManyPairs => "too many lookupswitch pairs"
  | codeTooLong => "code offset does not fit into 32 bits"
  | countTooLarge count width =>
    s!"failed to convert {count} to {width.name} for writing: value too large"
  | tooLarge => "number too large to fit in target type"
  | tooSmall => "number too small to fit in target type"

/-- The cause in words. -/
def Cause.message : Cause → String
  | fault f => f.message
  | note n => n.message

namespace Failure

/-- Each cause in words, the outermost first. -/
def messages (f : Failure) : List String := f.causes.map Cause.message

/-- The whole chain in words. -/
def message (f : Failure) : String := ": ".intercalate f.messages

end Failure

end ClassFormat
