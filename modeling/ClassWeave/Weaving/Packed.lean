import ClassWeave.Weaving.Edit
import ClassWeave.Weaving.Layout
import ClassWeave.Weaving.TypeIndex

/-!
# Packed components

The fields of all instances of a packed component live in one buffer of bytes, each instance having
a slot in it.  An instance keeps the number of its slot, and every access to a field becomes a call
of a generated accessor that computes the address from the slot, the distance between slots and the
offset of the field.  The buffer grows when a slot lies beyond its end.

A field of another packed type is stored as the number of its slot.  Its getter hands out one object
of that type for each instance, moved to the stored slot at every call.

* `Packed.rewriteAccesses` : accessor calls in place of field accesses.
* `Packed.addStride`, `Packed.addStaticInit` : the distance between slots as a constant, and the
  first buffer; `add_stride_constant` and `add_static_init`.
* `Packed.addCapacityMethod` : the method that makes the buffer large enough for a slot,
  `add_capacity_method`.
* `Packed.addAccessors`, `Packed.addNestedAccessors` : the accessors of a field; `add_getter` and
  `add_setter`, `add_flyweight_getter` and `add_flyweight_setter`.
* `Packed.apply` : the whole strategy, with the layout that it used; `apply`.
-/

namespace ClassWeave

namespace Packed

/-! ### Names -/

/-- The field with the number of the slot. -/
def indexField : String := "$index"

/-- The static field with the buffer. -/
def dataField : String := "$data"

/-- The static field with the distance between slots. -/
def strideField : String := "$stride"

/-- The static method that makes the buffer large enough for a slot. -/
def capacityMethod : String := "$ensureCapacity"

/-- It takes the number of the slot. -/
def capacityDescriptor : String := "(I)V"

/-- How many slots the first buffer has. -/
def initialSlots : Nat := 64

/-- The name of the method that sets up a class. -/
def staticInitName : String := "<clinit>"

/-- The class of buffers of bytes. -/
def byteBuffer : String := "java/nio/ByteBuffer"

/-- Its descriptor. -/
def byteBufferDescriptor : String := "Ljava/nio/ByteBuffer;"

/-- The class of all buffers. -/
def anyBuffer : String := "java/nio/Buffer"

/-- The name of the getter of the `field`. -/
def getterName (field : String) : String := "$get_" ++ field

/-- The name of the setter of the `field`. -/
def setterName (field : String) : String := "$set_" ++ field

/-- The name of the field with the object that stands for the nested component in the `field`. -/
def flyweightName (field : String) : String := "$fw_" ++ field

/-- The descriptor of the getter of the field `f`. -/
def getterDescriptor (f : PackedField) : String := "()" ++ f.kind.descriptor

/-- The descriptor of the setter of the field `f`. -/
def setterDescriptor (f : PackedField) : String := "(" ++ f.kind.descriptor ++ ")V"

/-! ### Accesses -/

/-- Whether the instruction at the site `s` accesses a field of the class `owner` whose name is that
of a field of the layout. -/
def accessesLayout (owner : String) (layout : PackedLayout) (pool : ConstantPool) (_ : Member)
    (s : Instruction.Site) : Except Malformation Bool := do
  if s.opcode ≠ Opcode.getField ∧ s.opcode ≠ Opcode.putField then return false
  let target ← pool.memberRef s.operand
  return target.owner = owner && (layout.field? target.name).isSome

/-- The call of the accessor in place of the access at the site `s`.  The accessor is that of the
first field of the layout with the name. -/
def redirectAccess (owner : String) (layout : PackedLayout) (pool : ConstantPool)
    (s : Instruction.Site) : Interning Instruction.Site := do
  let name := (← pool.memberRef s.operand).name
  match layout.field? name with
  | none => throw (.noPackedField name)
  | some f =>
    let operand ←
      if s.opcode = Opcode.getField then
        Interning.methodRef owner (getterName name) (getterDescriptor f)
      else Interning.methodRef owner (setterName name) (setterDescriptor f)
    return { s with opcode := Opcode.invokeSpecial, operand }

/-- Puts accessor calls in place of the accesses to the fields of `layout` in the class `owner`. -/
def rewriteAccesses (owner : String) (layout : PackedLayout) : Edit Unit :=
  Edit.rewriteSites (accessesLayout owner layout) (redirectAccess owner layout)

/-! ### The slot, the buffer and the stride -/

/-- The distance between slots as an integer constant. -/
def strideOf (layout : PackedLayout) : Except Malformation Int32 :=
  if layout.stride < 2 ^ 31 then .ok (Int32.ofNat layout.stride)
  else .error (.strideTooLarge layout.stride)

/-- Appends the static field with the distance between slots, which is a constant. -/
def addStride (layout : PackedLayout) : Growing Unit := do
  let stride ← strideOf layout
  let value ← Growing.interning (.integer stride)
  let attributeName ← Growing.interning (.utf8 Attribute.constantValueName)
  Growing.addField
    (Access.publicFlag ||| Access.staticFlag ||| Access.finalFlag ||| Access.syntheticFlag)
    strideField "I" [.raw attributeName (bytes16 value)]

/-- The size of the first buffer as an integer constant. -/
def initialSize (layout : PackedLayout) : Except Malformation Int32 := do
  let _ ← strideOf layout
  if layout.stride * initialSlots < 2 ^ 31 then
    return Int32.ofNat (layout.stride * initialSlots)
  else throw (.initialBufferTooLarge initialSlots)

/-- The slot of the method that allocates a buffer. -/
def allocateRef : Interning UInt16 :=
  Interning.methodRef byteBuffer "allocateDirect" "(I)Ljava/nio/ByteBuffer;"

/-- The slot of the static field of `owner` with the buffer. -/
def dataRef (owner : String) : Interning UInt16 :=
  Interning.fieldRef owner dataField byteBufferDescriptor

/-- The body of the method that sets up the class `owner`: it allocates a first buffer of `size`
bytes. -/
def staticInitBody (owner : String) (size : Int32) : Emission Unit := do
  let allocate ← allocateRef
  let data ← dataRef owner
  Emission.pushInt size
  Emission.op16 Opcode.invokeStatic allocate 0
  Emission.op16 Opcode.putStatic data (-1)
  Emission.emit (·.returnValue none)

/-- Appends the method that sets up the class `owner`.  A class that has one keeps it, and its
buffer is allocated when the first slot is asked for. -/
def addStaticInit (owner : String) (layout : PackedLayout) : Edit Unit := do
  let init? ← Edit.ask (·.findMethod? staticInitName Scan.plainDescriptor)
  if init?.isNone then
    Edit.grow do
      let size ← initialSize layout
      let (_, body) ← Growing.emission (staticInitBody owner size)
      Growing.addMethod Access.staticFlag staticInitName Scan.plainDescriptor body 0 none

/-- The body of the method that makes the buffer large enough: it allocates a buffer if there is
none, and replaces one that ends before the slot by one that reaches beyond it and is at least twice
as large, with the old contents copied.  Yields where the two branches lead. -/
def capacityBody (owner : String) (stride : Int32) : Emission (Nat × Nat) := do
  let data ← dataRef owner
  let allocate ← allocateRef
  let capacity ← Interning.methodRef anyBuffer "capacity" "()I"
  let rewind ← Interning.methodRef anyBuffer "rewind" "()Ljava/nio/Buffer;"
  let copy ← Interning.methodRef byteBuffer "put" "(Ljava/nio/ByteBuffer;)Ljava/nio/ByteBuffer;"
  let greater ← Interning.methodRef "java/lang/Math" "max" "(II)I"
  -- an empty buffer where there is none
  Emission.op16 Opcode.getStatic data 1
  let allocated ← Emission.branch Opcode.ifNonNull (-1)
  Emission.pushInt 0
  Emission.op16 Opcode.invokeStatic allocate 0
  Emission.op16 Opcode.putStatic data (-1)
  let first ← Emission.position
  Emission.patch allocated
  -- local 1: where the slot ends
  Emission.op Opcode.iload0 1
  Emission.pushInt 1
  Emission.op Opcode.iadd (-1)
  Emission.pushInt stride
  Emission.op Opcode.imul (-1)
  Emission.op Opcode.istore1 (-1)
  Emission.op16 Opcode.getStatic data 1
  Emission.op16 Opcode.invokeVirtual capacity 0
  Emission.op Opcode.iload1 1
  let fits ← Emission.branch Opcode.ifIcmpge (-2)
  -- copying moves the positions of both buffers, so the old one starts from its beginning
  Emission.op16 Opcode.getStatic data 1
  Emission.op16 Opcode.invokeVirtual rewind 0
  Emission.op Opcode.pop (-1)
  Emission.op Opcode.iload1 1
  Emission.op16 Opcode.getStatic data 1
  Emission.op16 Opcode.invokeVirtual capacity 0
  Emission.pushInt 2
  Emission.op Opcode.imul (-1)
  Emission.op16 Opcode.invokeStatic greater (-1)
  Emission.op16 Opcode.invokeStatic allocate 0
  Emission.op Opcode.dup 1
  Emission.op16 Opcode.getStatic data 1
  Emission.op16 Opcode.invokeVirtual copy (-1)
  Emission.op Opcode.pop (-1)
  Emission.op16 Opcode.putStatic data (-1)
  let second ← Emission.position
  Emission.patch fits
  Emission.emit (·.returnValue none)
  return (first, second)

/-- The frames of that method (JVMS 4.7.4): nothing new at `first`, where the first branch leads,
and one more integer local at `second`, where the second does. -/
def capacityFrames (first second : Nat) : Except Malformation Bytes :=
  if 63 < first then .error (.capacityFrameOutOfRange first)
  else if 2 ^ 16 ≤ second - first - 1 then .error (.capacityFrameOutOfRange second)
  else .ok (bytes16 2 ++ [UInt8.ofNat first, 252] ++ bytesOfCount (second - first - 1) ++ [1])

/-- Appends the method that makes the buffer large enough for a slot. -/
def addCapacityMethod (owner : String) (layout : PackedLayout) : Growing Unit := do
  let stride ← strideOf layout
  let ((first, second), body) ← Growing.emission (capacityBody owner stride)
  let frames ← capacityFrames first second
  Growing.addMethod (Access.privateFlag ||| Access.staticFlag ||| Access.syntheticFlag)
    capacityMethod capacityDescriptor body 2 (some frames)

/-! ### Accessors -/

/-- Makes the buffer of `owner` large enough for the slot of the instance, `ensure_slot`. -/
def ensureSlot (owner : String) : Emission Unit := do
  let slot ← Interning.fieldRef owner indexField "I"
  let grow ← Interning.methodRef owner capacityMethod capacityDescriptor
  Emission.this
  Emission.op16 Opcode.getField slot 0
  Emission.op16 Opcode.invokeStatic grow (-1)

/-- The offset of the field `f` as an integer constant. -/
def offsetOf (f : PackedField) : Except Malformation Int32 :=
  if f.offset < 2 ^ 31 then .ok (Int32.ofNat f.offset) else .error (.fieldOffsetTooLarge f.offset)

/-- Pushes the buffer and the address of the field `f` of the instance, `push_address`. -/
def pushAddress (owner : String) (layout : PackedLayout) (f : PackedField) : Emission Unit := do
  let data ← dataRef owner
  let slot ← Interning.fieldRef owner indexField "I"
  let stride ← strideOf layout
  let offset ← offsetOf f
  Emission.op16 Opcode.getStatic data 1
  Emission.this
  Emission.op16 Opcode.getField slot 0
  Emission.pushInt stride
  Emission.op Opcode.imul (-1)
  Emission.pushInt offset
  Emission.op Opcode.iadd (-1)

/-- A method of the buffer: its name and its descriptor. -/
abbrev BufferMethod := String × String

/-- The method that reads a value of a kind from the buffer. -/
def readMethod : ValueKind → BufferMethod
  | .boolean | .byte => ("get", "(I)B")
  | .char => ("getChar", "(I)C")
  | .short => ("getShort", "(I)S")
  | .float => ("getFloat", "(I)F")
  | .long => ("getLong", "(I)J")
  | .double => ("getDouble", "(I)D")
  | .int | .object _ | .array _ => ("getInt", "(I)I")

/-- The method that writes a value of a kind into the buffer. -/
def writeMethod : ValueKind → BufferMethod
  | .boolean | .byte => ("put", "(IB)Ljava/nio/ByteBuffer;")
  | .char => ("putChar", "(IC)Ljava/nio/ByteBuffer;")
  | .short => ("putShort", "(IS)Ljava/nio/ByteBuffer;")
  | .float => ("putFloat", "(IF)Ljava/nio/ByteBuffer;")
  | .long => ("putLong", "(IJ)Ljava/nio/ByteBuffer;")
  | .double => ("putDouble", "(ID)Ljava/nio/ByteBuffer;")
  | .int | .object _ | .array _ => ("putInt", "(II)Ljava/nio/ByteBuffer;")

/-- The slot of the method `m` of the buffer. -/
def bufferRef (m : BufferMethod) : Interning UInt16 := Interning.methodRef byteBuffer m.1 m.2

/-- Accessors are generated, and only the class itself calls them. -/
def accessorAccess : Access := Access.privateFlag ||| Access.syntheticFlag

/-- The body of the getter of a field `f` of fixed size. -/
def getterBody (owner : String) (layout : PackedLayout) (f : PackedField) : Emission Unit := do
  let read ← bufferRef (readMethod f.kind)
  ensureSlot owner
  pushAddress owner layout f
  Emission.op16 Opcode.invokeVirtual read (f.kind.slots - 2)
  Emission.emit (·.returnValue (some f.kind))

/-- The body of the setter of a field `f` of fixed size. -/
def setterBody (owner : String) (layout : PackedLayout) (f : PackedField) : Emission Unit := do
  let write ← bufferRef (writeMethod f.kind)
  ensureSlot owner
  pushAddress owner layout f
  Emission.emit (·.loadParameter f.kind)
  Emission.op16 Opcode.invokeVirtual write (-1 - f.kind.slots)
  Emission.op Opcode.pop (-1)
  Emission.emit (·.returnValue none)

/-- Appends the accessors of a field `f` of fixed size. -/
def addAccessors (owner : String) (layout : PackedLayout) (f : PackedField) : Growing Unit := do
  let (_, getter) ← Growing.emission (getterBody owner layout f)
  Growing.addMethod accessorAccess (getterName f.name) (getterDescriptor f) getter 1 none
  let (_, setter) ← Growing.emission (setterBody owner layout f)
  Growing.addMethod accessorAccess (setterName f.name) (setterDescriptor f) setter
    (UInt16.ofNat (1 + f.kind.slots)) none

/-! ### Nested components -/

/-- The body of the getter of a field `f` with a component of the type `nested`: it creates the
object that stands for the component at the first call, and moves it to the stored slot.  Yields
where the branch leads. -/
def nestedGetterBody (owner : String) (layout : PackedLayout) (f : PackedField)
    (nested : String) : Emission Nat := do
  let flyweight ← Interning.fieldRef owner (flyweightName f.name) f.kind.descriptor
  let nestedClass ← Interning.classRef nested
  let nestedInit ← Interning.methodRef nested "<init>" "()V"
  let nestedSlot ← Interning.fieldRef nested indexField "I"
  let read ← bufferRef (readMethod .int)
  ensureSlot owner
  Emission.this
  Emission.op16 Opcode.getField flyweight 0
  let created ← Emission.branch Opcode.ifNonNull (-1)
  Emission.this
  Emission.op16 Opcode.new nestedClass 1
  Emission.op Opcode.dup 1
  Emission.op16 Opcode.invokeSpecial nestedInit (-1)
  Emission.op16 Opcode.putField flyweight (-2)
  let target ← Emission.position
  Emission.patch created
  Emission.this
  Emission.op16 Opcode.getField flyweight 0
  Emission.op Opcode.dup 1
  pushAddress owner layout f
  Emission.op16 Opcode.invokeVirtual read (-1)
  Emission.op16 Opcode.putField nestedSlot (-2)
  Emission.emit (·.returnValue (some f.kind))
  return target

/-- The frame of that getter: nothing new at `target`, where the branch leads. -/
def nestedFrames (target : Nat) : Except Malformation Bytes :=
  if 63 < target then .error (.flyweightFrameOutOfRange target)
  else .ok (bytes16 1 ++ [UInt8.ofNat target])

/-- The body of the setter of a field `f` with a component of the type `nested`: it stores the
number of its slot. -/
def nestedSetterBody (owner : String) (layout : PackedLayout) (f : PackedField)
    (nested : String) : Emission Unit := do
  let nestedSlot ← Interning.fieldRef nested indexField "I"
  let write ← bufferRef (writeMethod .int)
  ensureSlot owner
  pushAddress owner layout f
  Emission.emit (·.loadParameter f.kind)
  Emission.op16 Opcode.getField nestedSlot 0
  Emission.op16 Opcode.invokeVirtual write (-2)
  Emission.op Opcode.pop (-1)
  Emission.emit (·.returnValue none)

/-- Appends the field with the object that stands for the component in `f`, and its accessors. -/
def addNestedAccessors (owner : String) (layout : PackedLayout) (f : PackedField)
    (nested : String) : Growing Unit := do
  Growing.addField (Access.privateFlag ||| Access.syntheticFlag) (flyweightName f.name)
    f.kind.descriptor []
  let (target, getter) ← Growing.emission (nestedGetterBody owner layout f nested)
  let frames ← nestedFrames target
  Growing.addMethod accessorAccess (getterName f.name) (getterDescriptor f) getter 1 (some frames)
  let (_, setter) ← Growing.emission (nestedSetterBody owner layout f nested)
  Growing.addMethod accessorAccess (setterName f.name) (setterDescriptor f) setter 2 none

/-- Appends what the field `f` of the layout needs. -/
def addField (owner : String) (layout : PackedLayout) (f : PackedField) : Growing Unit :=
  match f.kind with
  | .object nested => addNestedAccessors owner layout f nested
  | _ => addAccessors owner layout f

/-! ### The strategy -/

/-- Appends the fields that every packed unit has: the number of the slot, the buffer, and the
distance between slots. -/
def addSharedFields (layout : PackedLayout) : Growing Unit := do
  Growing.addField (Access.publicFlag ||| Access.syntheticFlag) indexField "I" []
  Growing.addField (Access.privateFlag ||| Access.staticFlag ||| Access.syntheticFlag) dataField
    byteBufferDescriptor []
  addStride layout

/-- Appends the method that makes the buffer large enough, and the accessors of all fields. -/
def addMethods (owner : String) (layout : PackedLayout) : Growing Unit := do
  addCapacityMethod owner layout
  layout.fields.forM (addField owner layout)

/-- The first type of a nested component in `layout` that is no packed type of `index`. -/
def firstUnresolved? (index : TypeIndex) (layout : PackedLayout) : Option String :=
  layout.fields.findSome? fun f =>
    match f.kind with
    | .object nested => if index.isPacked nested then none else some nested
    | _ => none

/-- Applies the packed strategy, which knows of other types what `index` tells; yields the
layout. -/
def apply (index : TypeIndex) : Edit PackedLayout := do
  let owner ← Edit.ask ClassFile.name
  let layout := PackedLayout.ofFields (← Edit.ask ClassFile.fieldsView)
  if let some nested := firstUnresolved? index layout then throw (.unresolved nested)
  rewriteAccesses owner layout
  modify fun u => { u with fields := u.fields.filter (!·.isInstance) }
  Edit.grow (addSharedFields layout)
  addStaticInit owner layout
  Edit.grow (addMethods owner layout)
  Edit.reparent plainBase packedBase
  return layout

end Packed

end ClassWeave
