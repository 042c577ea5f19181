import ClassWeave.Pool.Constant

/-!
# What can be wrong with a class file

Every way in which bytes, a model or a method body can fail to be a well-formed class file is a
cause of its own (`Malformation`), and `Malformation.message` is the one place that words it.  All
of them are errors `MalformedUnit`, which also tell the place in the program at which they come up;
that is left out here.
-/

namespace ClassWeave

/-- The kind of constant that a reference into the pool asked for. -/
inductive WantedConstant where
  | utf8
  | classInfo
  | nameAndType
  | memberRef
  deriving DecidableEq, Repr

/-- How a diagnostic names the kind. -/
def WantedConstant.label : WantedConstant → String
  | utf8 => "Utf8"
  | classInfo => "a Class"
  | nameAndType => "a NameAndType"
  | memberRef => "a member reference"

/-- The top-level tables of a class file whose length is a half word. -/
inductive UnitTable where
  | interfaces
  | fields
  | methods
  deriving DecidableEq, Repr

/-- How a diagnostic names the table. -/
def UnitTable.label : UnitTable → String
  | interfaces => "interfaces"
  | fields => "fields"
  | methods => "methods"

/-- Why something is not a well-formed class file, or could not be made one. -/
inductive Malformation where
  /-- A section ends before all of it was read. -/
  | truncated
  /-- There are no bytes at all. -/
  | emptyUnit
  /-- The first word is not the magic number. -/
  | wrongMagic (found : UInt32)
  /-- The major version lies outside the accepted range. -/
  | unsupportedVersion (major minor least greatest : UInt16)
  /-- Bytes are left over after the class attributes. -/
  | trailingBytes (count : Nat)
  /-- The constant pool has not even its unused slot. -/
  | noPoolSlots
  /-- A wide constant starts in the last slot of the pool. -/
  | wideInLastSlot
  /-- No kind of constant has this tag. -/
  | unknownConstantTag (tag : UInt8)
  /-- A slot holds no constant. -/
  | noConstant (index : UInt16)
  /-- A slot holds a constant of another kind than asked for. -/
  | wrongConstant (index : UInt16) (wanted : WantedConstant) (found : Constant)
  /-- The pool has no room for another constant. -/
  | poolOverflow
  /-- A text ends in the middle of a character. -/
  | truncatedText
  /-- No character of a text starts with this byte. -/
  | badLeadByte (byte : UInt8)
  /-- A text holds half of a surrogate pair. -/
  | unpairedSurrogate
  /-- A text is no field descriptor. -/
  | badFieldDescriptor (text : String)
  /-- No kind of annotation value has this tag. -/
  | unknownElementTag (tag : UInt8)
  /-- Bytes are left over after a list of annotations. -/
  | trailingAnnotationBytes
  /-- A method body is empty or longer than allowed. -/
  | badCodeLength (length : UInt32)
  /-- Bytes are left over in a method body. -/
  | trailingCodeBytes
  /-- The payload of an attribute is too long to be written. -/
  | payloadTooLarge
  /-- An attribute table is too long to be written. -/
  | tooManyAttributes
  /-- The instructions of a method are too long to be written. -/
  | codeTooLarge
  /-- An exception table is too long to be written. -/
  | tooManyHandlers
  /-- A top-level table is too long to be written. -/
  | tooManyEntries (table : UnitTable) (count : Nat)
  /-- An instruction is asked for beyond the end of the code. -/
  | offsetPastEnd (offset : Nat)
  /-- The greatest key of a table switch lies below its least. -/
  | switchBoundsReversed (offset : Nat)
  /-- A lookup switch announces fewer than no pairs. -/
  | negativePairCount (offset : Nat)
  /-- The code ends after the prefix that widens an instruction. -/
  | truncatedWide (offset : Nat)
  /-- No instruction has this opcode. -/
  | reservedOpcode (opcode : UInt8) (offset : Nat)
  /-- The code ends in the middle of an instruction. -/
  | instructionPastEnd (offset : Nat)
  /-- A branch would have to jump further than it can. -/
  | branchOutOfRange (distance : Int)
  /-- A woven marker records a strategy that does not exist. -/
  | unknownStrategy (text : String)
  /-- The slots of a packed component are too far apart. -/
  | strideTooLarge (stride : Nat)
  /-- The first buffer of a packed component would be too large. -/
  | initialBufferTooLarge (slots : Nat)
  /-- A frame of the method that grows the buffer cannot be described. -/
  | capacityFrameOutOfRange (offset : Nat)
  /-- A frame of the accessor of a nested component cannot be described. -/
  | flyweightFrameOutOfRange (offset : Nat)
  /-- A packed field lies too far from the start of its slot. -/
  | fieldOffsetTooLarge (offset : Nat)
  /-- A packed layout has no field of this name. -/
  | noPackedField (name : String)
  /-- A unit is stored under another name than its own. -/
  | storedUnder (name key : String)
  /-- A cause given in words. -/
  | described (text : String)
  deriving DecidableEq, Repr

namespace Malformation

/-- A byte as a diagnostic shows it. -/
def byteText (b : UInt8) : String := "0x" ++ Hex.ofNat 2 b.toNat

/-- The wording of a cause. -/
def message : Malformation → String
  | truncated => "truncated section, read past the end of the unit"
  | emptyUnit => "empty unit"
  | wrongMagic found => "wrong magic header 0x" ++ Hex.ofNat 8 found.toNat
  | unsupportedVersion major minor least greatest =>
    s!"unsupported class file version {major.toNat}.{minor.toNat} " ++
      s!"(accepted {least.toNat}..={greatest.toNat})"
  | trailingBytes count => s!"{count} trailing bytes after class attributes"
  | noPoolSlots => "constant pool count is zero"
  | wideInLastSlot => "wide constant in the last pool slot"
  | unknownConstantTag tag => s!"unknown constant pool tag {tag.toNat}"
  | noConstant index => s!"invalid constant pool index {index.toNat}"
  | wrongConstant index wanted found =>
    s!"constant {index.toNat} is not {wanted.label} but {found.describe}"
  | poolOverflow => "constant pool overflow"
  | truncatedText => "truncated modified UTF-8 sequence"
  | badLeadByte byte => s!"invalid modified UTF-8 lead byte {byteText byte}"
  | unpairedSurrogate => "unpaired surrogate in Utf8 constant"
  | badFieldDescriptor text => s!"invalid field descriptor '{text}'"
  | unknownElementTag tag => s!"unknown element value tag {byteText tag}"
  | trailingAnnotationBytes => "trailing bytes after annotation list"
  | badCodeLength length => s!"invalid code length {length.toNat}"
  | trailingCodeBytes => "trailing bytes in Code attribute"
  | payloadTooLarge => "attribute payload too large"
  | tooManyAttributes => "too many attributes"
  | codeTooLarge => "code too large"
  | tooManyHandlers => "too many exception handlers"
  | tooManyEntries table count => s!"too many {table.label} ({count})"
  | offsetPastEnd offset => s!"instruction offset {offset} past end of code"
  | switchBoundsReversed offset => s!"tableswitch at {offset} has high < low"
  | negativePairCount offset => s!"lookupswitch at {offset} has negative npairs"
  | truncatedWide offset => s!"truncated wide instruction at {offset}"
  | reservedOpcode opcode offset => s!"reserved opcode {byteText opcode} at {offset}"
  | instructionPastEnd offset => s!"instruction at {offset} runs past the end of code"
  | branchOutOfRange distance => s!"branch distance {distance} out of range"
  | unknownStrategy text => s!"woven marker records unknown strategy '{text}'"
  | strideTooLarge stride => s!"stride {stride} too large"
  | initialBufferTooLarge slots => s!"initial buffer of {slots} slots too large"
  | capacityFrameOutOfRange offset => s!"capacity frame offset {offset} out of range"
  | flyweightFrameOutOfRange offset => s!"flyweight frame offset {offset} out of range"
  | fieldOffsetTooLarge offset => s!"offset {offset} too large"
  | noPackedField name => s!"no packed field named {name}"
  | storedUnder name key => s!"unit {name} is stored under {key}"
  | described text => text

end Malformation

end ClassWeave
