import ClassWeave.Proofs.Body.Emission
import ClassWeave.Proofs.Machine.Library
import ClassWeave.Weaving.Packed

/-!
# The code of packed components

The code of every method that a packed unit gains, in pieces, and the proof that it is what is
emitted.

* `Packed.capacityCode`, `staticInitCode` : the methods that make and grow the buffer.
* `Packed.getterCode`, `setterCode` : the accessors of a field of fixed size.
* `Packed.nestedGetterCode`, `nestedSetterCode` : the accessors of a nested component.
-/

namespace ClassWeave

namespace Packed

/-! ### What the code refers to -/

/-- The static field with the buffer. -/
def dataMember (owner : String) : MemberRef :=
  { owner, name := dataField, descriptor := byteBufferDescriptor }

/-- The field with the number of the slot. -/
def indexMember (owner : String) : MemberRef :=
  { owner, name := indexField, descriptor := "I" }

/-- The field with the object that stands for a nested component. -/
def flyweightMember (owner : String) (f : PackedField) : MemberRef :=
  { owner, name := flyweightName f.name, descriptor := f.kind.descriptor }

/-- The method that makes the buffer large enough for a slot. -/
def capacityCall (owner : String) : MemberRef :=
  { owner, name := capacityMethod, descriptor := capacityDescriptor }

/-- The constructor of a nested component. -/
def constructorCall (nested : String) : MemberRef :=
  { owner := nested, name := "<init>", descriptor := "()V" }

/-- A method of the buffer. -/
def bufferCall (m : BufferMethod) : MemberRef :=
  { owner := byteBuffer, name := m.1, descriptor := m.2 }

theorem ref_readMethod (kind : ValueKind) :
    bufferCall (readMethod kind) = (Native.read kind.cell).ref := by
  cases kind with
  | object | array =>
    show bufferCall (readMethod .int) = (Native.read .int).ref
    decide
  | _ => decide

theorem ref_writeMethod (kind : ValueKind) :
    bufferCall (writeMethod kind) = (Native.write kind.cell).ref := by
  cases kind with
  | object | array =>
    show bufferCall (writeMethod .int) = (Native.write .int).ref
    decide
  | _ => decide

/-! ### The types of what the code refers to -/

open Descriptor (fieldType? signature?)

theorem fieldType?_dataMember (owner : String) :
    fieldType? (dataMember owner).descriptor = some .ref :=
  (by decide : fieldType? byteBufferDescriptor = some .ref)

theorem fieldType?_indexMember (owner : String) :
    fieldType? (indexMember owner).descriptor = some .int :=
  (by decide : fieldType? "I" = some .int)

theorem signature?_capacityCall (owner : String) : signature? (capacityCall owner).descriptor =
    some { parameters := [.int], result? := none } :=
  (by decide : signature? capacityDescriptor = some { parameters := [.int], result? := none })

theorem signature?_constructorCall (nested : String) :
    signature? (constructorCall nested).descriptor = some { parameters := [], result? := none } :=
  (by decide : signature? "()V" = some { parameters := [], result? := none })

theorem signature?_readMethod (kind : ValueKind) :
    signature? (bufferCall (readMethod kind)).descriptor =
      some { parameters := [.int], result? := some kind.cell.type } := by
  rw [ref_readMethod, Native.signature?_ref]
  rfl

theorem signature?_writeMethod (kind : ValueKind) :
    signature? (bufferCall (writeMethod kind)).descriptor =
      some { parameters := [.int, kind.cell.type], result? := some .ref } := by
  rw [ref_writeMethod, Native.signature?_ref]
  rfl

/-! ### Code -/

open Instr

variable (owner : String)

/-- The code that sets up the class. -/
def staticInitCode (size : Int32) : List Piece :=
  [.plain (push (.int size)), .plain (invoke .static Native.allocate.ref),
    .plain (putStatic (dataMember owner)), .plain (ret none)]

/-- The instructions that allocate an empty buffer. -/
def allocateEmpty : List Instr :=
  [push (.int 0), invoke .static Native.allocate.ref, putStatic (dataMember owner)]

/-- The instructions that replace the buffer by a larger one with the same contents. -/
def growBuffer : List Instr :=
  [getStatic (dataMember owner), invoke .virtual Native.rewind.ref, pop, load .int 1,
    getStatic (dataMember owner), invoke .virtual Native.size.ref, push (.int 2), mul,
    invoke .static Native.max.ref, invoke .static Native.allocate.ref, dup,
    getStatic (dataMember owner), invoke .virtual Native.copy.ref, pop,
    putStatic (dataMember owner)]

/-- The code that makes the buffer large enough for a slot. -/
def capacityCode (stride : Int32) : List Piece :=
  [.plain (getStatic (dataMember owner)), .guarded .nonNull (allocateEmpty owner),
    .plain (load .int 0), .plain (push (.int 1)), .plain add, .plain (push (.int stride)),
    .plain mul, .plain (store .int 1), .plain (getStatic (dataMember owner)),
    .plain (invoke .virtual Native.size.ref), .plain (load .int 1), .guarded .ge (growBuffer owner),
    .plain (ret none)]

/-- The code that makes the buffer large enough for the slot of the instance. -/
def ensureSlotCode : List Piece :=
  [.plain (load .ref 0), .plain (getField (indexMember owner)),
    .plain (invoke .static (capacityCall owner))]

/-- The code that pushes the buffer and the address of a field of the instance. -/
def addressCode (stride offset : Int32) : List Piece :=
  [.plain (getStatic (dataMember owner)), .plain (load .ref 0),
    .plain (getField (indexMember owner)), .plain (push (.int stride)), .plain mul,
    .plain (push (.int offset)), .plain add]

/-- The code of the getter of a field of fixed size. -/
def getterCode (stride offset : Int32) (kind : ValueKind) : List Piece :=
  ensureSlotCode owner ++ (addressCode owner stride offset ++
    [.plain (invoke .virtual (bufferCall (readMethod kind))), .plain (ret (some kind.type))])

/-- The code of the setter of a field of fixed size. -/
def setterCode (stride offset : Int32) (kind : ValueKind) : List Piece :=
  ensureSlotCode owner ++ (addressCode owner stride offset ++
    [.plain (load kind.type 1), .plain (invoke .virtual (bufferCall (writeMethod kind))),
      .plain pop, .plain (ret none)])

/-- The instructions that create the object that stands for a nested component. -/
def createFlyweight (f : PackedField) (nested : String) : List Instr :=
  [load .ref 0, new nested, dup, invoke .special (constructorCall nested),
    putField (flyweightMember owner f)]

/-- The code of the getter of a nested component. -/
def nestedGetterCode (stride offset : Int32) (f : PackedField) (nested : String) : List Piece :=
  ensureSlotCode owner ++ (.plain (load .ref 0) :: .plain (getField (flyweightMember owner f)) ::
    .guarded .nonNull (createFlyweight owner f nested) :: .plain (load .ref 0) ::
    .plain (getField (flyweightMember owner f)) :: .plain dup ::
    (addressCode owner stride offset ++ [.plain (invoke .virtual (bufferCall (readMethod .int))),
      .plain (putField (indexMember nested)), .plain (ret (some f.kind.type))]))

/-- The code of the setter of a nested component. -/
def nestedSetterCode (stride offset : Int32) (f : PackedField) (nested : String) : List Piece :=
  ensureSlotCode owner ++ (addressCode owner stride offset ++
    [.plain (load f.kind.type 1), .plain (getField (indexMember nested)),
      .plain (invoke .virtual (bufferCall (writeMethod .int))), .plain pop, .plain (ret none)])

/-! ### What the code adds to the depth of the operand stack -/

variable {owner} {f : PackedField} {nested : String}

theorem effect_getData : (getStatic (dataMember owner)).effect = 1 :=
  effect_getStatic (fieldType?_dataMember owner)

theorem effect_putData : (putStatic (dataMember owner)).effect = -1 :=
  effect_putStatic (fieldType?_dataMember owner)

theorem effect_getIndex : (getField (indexMember owner)).effect = 0 :=
  effect_getField (fieldType?_indexMember owner)

theorem effect_putIndex : (putField (indexMember owner)).effect = -2 :=
  effect_putField (fieldType?_indexMember owner)

theorem effect_capacityCall : (invoke .static (capacityCall owner)).effect = -1 :=
  effect_invoke (signature?_capacityCall owner)

theorem effect_constructorCall : (invoke .special (constructorCall nested)).effect = -1 :=
  effect_invoke (signature?_constructorCall nested)

theorem effect_native (n : Native) : (invoke n.kind n.ref).effect =
    ValueType.slotsOf n.signature.result?.toList - ValueType.slotsOf n.signature.parameters -
      (if n.kind = .static then 0 else 1) :=
  effect_invoke n.signature?_ref

theorem effect_readMethod (kind : ValueKind) :
    (invoke .virtual (bufferCall (readMethod kind))).effect = kind.slots - 2 := by
  rw [effect_invoke (signature?_readMethod kind)]
  cases kind <;> rfl

theorem effect_writeMethod (kind : ValueKind) :
    (invoke .virtual (bufferCall (writeMethod kind))).effect = -1 - kind.slots := by
  rw [effect_invoke (signature?_writeMethod kind)]
  cases kind <;> rfl

/-- A class name that is no descriptor does not change that its field holds a reference. -/
theorem slots_flyweightMember (hkind : f.kind = .object nested) :
    ((fieldType? (flyweightMember owner f).descriptor).getD .ref).slots = 1 := by
  have htext : (flyweightMember owner f).descriptor.toList = 'L' :: (nested.toList ++ [';']) := by
    simp [flyweightMember, hkind, ValueKind.descriptor, String.toList_append]
  exact Descriptor.slots_of_reference htext (.inr rfl)

theorem effect_getFlyweight (owner : String) (hkind : f.kind = .object nested) :
    (getField (flyweightMember owner f)).effect = 0 := by
  rw [effect, slots_flyweightMember hkind]
  rfl

theorem effect_putFlyweight (hkind : f.kind = .object nested) :
    (putField (flyweightMember owner f)).effect = -2 := by
  rw [effect, slots_flyweightMember hkind]
  rfl

/-! ### The code is emitted -/

open Emission

variable {p : ConstantPool}

theorem emits_staticInitBody {size : Int32} :
    Emits p (staticInitBody owner size) (staticInitCode owner size) := by
  refine writes_interning (fun _ _ _ => Interning.gives_methodRef) fun _ _ _ hallocate => ?_
  refine writes_interning (fun _ _ _ => Interning.gives_fieldRef) fun _ _ h hdata => ?_
  have hallocate := h.refAt? hallocate
  refine emits_then (emits_pushInt size) fun _ => ?_
  refine emits_then (emits_call (fun _ _ => rfl) hallocate (effect_native .allocate)) fun _ => ?_
  refine emits_then (emits_field (fun _ _ => rfl) hdata effect_putData) fun _ => ?_
  exact emits_returnValue none

theorem emits_ensureSlot : Emits p (ensureSlot owner) (ensureSlotCode owner) := by
  refine writes_interning (fun _ _ _ => Interning.gives_fieldRef) fun _ _ _ hslot => ?_
  refine writes_interning (fun _ _ _ => Interning.gives_methodRef) fun _ _ h hgrow => ?_
  have hslot := h.refAt? hslot
  refine emits_then emits_this fun _ => ?_
  refine emits_then (emits_field (fun _ _ => rfl) hslot effect_getIndex) fun _ => ?_
  exact emits_call (fun _ _ => rfl) hgrow effect_capacityCall

theorem strideOf_eq_ok {layout : PackedLayout} {stride : Int32} :
    strideOf layout = .ok stride ↔ layout.stride < 2 ^ 31 ∧ stride = Int32.ofNat layout.stride := by
  unfold strideOf
  by_cases h : layout.stride < 2 ^ 31
  · rw [if_pos h, Except.ok.injEq, eq_comm, and_iff_right h]
  · rw [if_neg h]
    exact ⟨nofun, fun hstride => absurd hstride.1 h⟩

theorem offsetOf_eq_ok {f : PackedField} {offset : Int32} :
    offsetOf f = .ok offset ↔ f.offset < 2 ^ 31 ∧ offset = Int32.ofNat f.offset := by
  unfold offsetOf
  by_cases h : f.offset < 2 ^ 31
  · rw [if_pos h, Except.ok.injEq, eq_comm, and_iff_right h]
  · rw [if_neg h]
    exact ⟨nofun, fun hoffset => absurd hoffset.1 h⟩

variable {layout : PackedLayout}

theorem emits_pushAddress : Emits p (pushAddress owner layout f)
    (addressCode owner (.ofNat layout.stride) (.ofNat f.offset)) := by
  refine writes_interning (fun _ _ _ => Interning.gives_fieldRef) fun _ _ _ hdata => ?_
  refine writes_interning (fun _ _ _ => Interning.gives_fieldRef) fun _ _ h hslot => ?_
  have hdata := h.refAt? hdata
  refine writes_lift fun stride hstride => writes_lift fun offset hoffset => ?_
  obtain ⟨-, rfl⟩ := strideOf_eq_ok.1 hstride
  obtain ⟨-, rfl⟩ := offsetOf_eq_ok.1 hoffset
  refine emits_then (emits_field (fun _ _ => rfl) hdata effect_getData) fun _ => ?_
  refine emits_then emits_this fun _ => ?_
  refine emits_then (emits_field (fun _ _ => rfl) hslot effect_getIndex) fun _ => ?_
  refine emits_then (emits_pushInt _) fun _ => ?_
  refine emits_then (emits_op rfl rfl) fun _ => ?_
  refine emits_then (emits_pushInt _) fun _ => ?_
  exact emits_op rfl rfl

theorem gives_bufferRef {m : BufferMethod} {i : UInt16} {q : ConstantPool}
    (h : Gives (bufferRef m) p i q) : p.Extends q ∧ q.methodAt? i = some (bufferCall m) :=
  Interning.gives_methodRef h

theorem emits_getterBody : Emits p (getterBody owner layout f)
    (getterCode owner (.ofNat layout.stride) (.ofNat f.offset) f.kind) := by
  refine writes_interning (fun _ _ _ => gives_bufferRef) fun _ _ _ hread => ?_
  refine emits_bind emits_ensureSlot fun _ => emits_bind emits_pushAddress fun _ => ?_
  refine emits_then (emits_call (fun _ _ => rfl) hread (effect_readMethod f.kind)) fun _ => ?_
  exact emits_returnValue (some f.kind)

theorem emits_setterBody : Emits p (setterBody owner layout f)
    (setterCode owner (.ofNat layout.stride) (.ofNat f.offset) f.kind) := by
  refine writes_interning (fun _ _ _ => gives_bufferRef) fun _ _ _ hwrite => ?_
  refine emits_bind emits_ensureSlot fun _ => emits_bind emits_pushAddress fun _ => ?_
  refine emits_then (emits_loadParameter f.kind) fun _ => ?_
  refine emits_then (emits_call (fun _ _ => rfl) hwrite (effect_writeMethod f.kind)) fun _ => ?_
  refine emits_then (emits_op rfl rfl) fun _ => ?_
  exact emits_returnValue none

theorem emits_nestedSetterBody : Emits p (nestedSetterBody owner layout f nested)
    (nestedSetterCode owner (.ofNat layout.stride) (.ofNat f.offset) f nested) := by
  refine writes_interning (fun _ _ _ => Interning.gives_fieldRef) fun _ _ _ hslot => ?_
  refine writes_interning (fun _ _ _ => gives_bufferRef) fun _ _ h hwrite => ?_
  have hslot := h.refAt? hslot
  refine emits_bind emits_ensureSlot fun _ => emits_bind emits_pushAddress fun _ => ?_
  refine emits_then (emits_loadParameter f.kind) fun _ => ?_
  refine emits_then (emits_field (fun _ _ => rfl) hslot effect_getIndex) fun _ => ?_
  refine emits_then (emits_call (fun _ _ => rfl) hwrite (effect_writeMethod .int)) fun _ => ?_
  refine emits_then (emits_op rfl rfl) fun _ => ?_
  exact emits_returnValue none

/-! ### Code with branches -/

/-- What is skipped when there is an object for the nested component already. -/
def createBody (nestedClass nestedInit flyweight : UInt16) : Emission Unit := do
  Emission.this
  Emission.op16 Opcode.new nestedClass 1
  Emission.op Opcode.dup 1
  Emission.op16 Opcode.invokeSpecial nestedInit (-1)
  Emission.op16 Opcode.putField flyweight (-2)

/-- What is skipped when there is a buffer already. -/
def allocateEmptyBody (allocate data : UInt16) : Emission Unit := do
  Emission.pushInt 0
  Emission.op16 Opcode.invokeStatic allocate 0
  Emission.op16 Opcode.putStatic data (-1)

/-- What is skipped when the buffer is large enough. -/
def growBufferBody (data allocate capacity rewind copy greater : UInt16) : Emission Unit := do
  Emission.op16 Opcode.getStatic data 1
  Emission.op16 Opcode.invokeVirtual rewind 0
  Emission.op Opcode.pop (-1)
  Emission.op Opcode.iload1 1
  Emission.op16 Opcode.getStatic data 1
  Emission.op16 Opcode.invokeVirtual capacity 0
  Emission.pushInt 2
  Emission.op Opcode.imul (-1)
  Emission.op16 Opcode.invokeStatic greater (-1)
  Emission.op16 Opcode.invokeStatic allocate 0
  Emission.op Opcode.dup 1
  Emission.op16 Opcode.getStatic data 1
  Emission.op16 Opcode.invokeVirtual copy (-1)
  Emission.op Opcode.pop (-1)
  Emission.op16 Opcode.putStatic data (-1)

theorem nestedGetterBody_eq (nested : String) : nestedGetterBody owner layout f nested = (do
    let flyweight ← Interning.fieldRef owner (flyweightName f.name) f.kind.descriptor
    let nestedClass ← Interning.classRef nested
    let nestedInit ← Interning.methodRef nested "<init>" "()V"
    let nestedSlot ← Interning.fieldRef nested indexField "I"
    let read ← bufferRef (readMethod .int)
    ensureSlot owner
    Emission.this
    Emission.op16 Opcode.getField flyweight 0
    let target ← skipping .nonNull (createBody nestedClass nestedInit flyweight)
    Emission.this
    Emission.op16 Opcode.getField flyweight 0
    Emission.op Opcode.dup 1
    pushAddress owner layout f
    Emission.op16 Opcode.invokeVirtual read (-1)
    Emission.op16 Opcode.putField nestedSlot (-2)
    Emission.emit (·.returnValue (some f.kind))
    return target) := by
  simp only [nestedGetterBody, skipping, createBody, bind_assoc, pure_bind, Test.opcode,
    Test.effect]

theorem capacityBody_eq (stride : Int32) : capacityBody owner stride = (do
    let data ← dataRef owner
    let allocate ← allocateRef
    let capacity ← Interning.methodRef anyBuffer "capacity" "()I"
    let rewind ← Interning.methodRef anyBuffer "rewind" "()Ljava/nio/Buffer;"
    let copy ← Interning.methodRef byteBuffer "put" "(Ljava/nio/ByteBuffer;)Ljava/nio/ByteBuffer;"
    let greater ← Interning.methodRef "java/lang/Math" "max" "(II)I"
    Emission.op16 Opcode.getStatic data 1
    let first ← skipping .nonNull (allocateEmptyBody allocate data)
    Emission.op Opcode.iload0 1
    Emission.pushInt 1
    Emission.op Opcode.iadd (-1)
    Emission.pushInt stride
    Emission.op Opcode.imul (-1)
    Emission.op Opcode.istore1 (-1)
    Emission.op16 Opcode.getStatic data 1
    Emission.op16 Opcode.invokeVirtual capacity 0
    Emission.op Opcode.iload1 1
    let second ← skipping .ge (growBufferBody data allocate capacity rewind copy greater)
    Emission.emit (·.returnValue none)
    return (first, second)) := by
  simp only [capacityBody, skipping, allocateEmptyBody, growBufferBody, bind_assoc, pure_bind,
    Test.opcode, Test.effect]

theorem emits_createBody {nestedClass nestedInit flyweight : UInt16}
    (hkind : f.kind = .object nested) (hclass : p.className nestedClass = .ok nested)
    (hinit : p.methodAt? nestedInit = some (constructorCall nested))
    (hflyweight : p.fieldAt? flyweight = some (flyweightMember owner f)) :
    Emits p (createBody nestedClass nestedInit flyweight)
      ((createFlyweight owner f nested).map .plain) := by
  refine emits_then emits_this fun _ => ?_
  refine emits_then (emits_new hclass) fun _ => ?_
  refine emits_then (emits_op rfl rfl) fun _ => ?_
  refine emits_then (emits_call (fun _ _ => rfl) hinit effect_constructorCall) fun _ => ?_
  exact emits_field (fun _ _ => rfl) hflyweight (effect_putFlyweight hkind)

theorem emits_allocateEmptyBody {allocate data : UInt16}
    (hallocate : p.methodAt? allocate = some Native.allocate.ref)
    (hdata : p.fieldAt? data = some (dataMember owner)) :
    Emits p (allocateEmptyBody allocate data) ((allocateEmpty owner).map .plain) := by
  refine emits_then (emits_pushInt 0) fun _ => ?_
  refine emits_then (emits_call (fun _ _ => rfl) hallocate (effect_native .allocate)) fun _ => ?_
  exact emits_field (fun _ _ => rfl) hdata effect_putData

theorem emits_growBufferBody {data allocate capacity rewind copy greater : UInt16}
    (hdata : p.fieldAt? data = some (dataMember owner))
    (hallocate : p.methodAt? allocate = some Native.allocate.ref)
    (hsize : p.methodAt? capacity = some Native.size.ref)
    (hrewind : p.methodAt? rewind = some Native.rewind.ref)
    (hcopy : p.methodAt? copy = some Native.copy.ref)
    (hmax : p.methodAt? greater = some Native.max.ref) :
    Emits p (growBufferBody data allocate capacity rewind copy greater)
      ((growBuffer owner).map .plain) := by
  refine emits_then (emits_field (fun _ _ => rfl) hdata effect_getData) fun _ => ?_
  refine emits_then (emits_call (fun _ _ => rfl) hrewind (effect_native .rewind)) fun _ => ?_
  refine emits_then (emits_op rfl rfl) fun _ => ?_
  refine emits_then (emits_op rfl rfl) fun _ => ?_
  refine emits_then (emits_field (fun _ _ => rfl) hdata effect_getData) fun _ => ?_
  refine emits_then (emits_call (fun _ _ => rfl) hsize (effect_native .size)) fun _ => ?_
  refine emits_then (emits_pushInt 2) fun _ => ?_
  refine emits_then (emits_op rfl rfl) fun _ => ?_
  refine emits_then (emits_call (fun _ _ => rfl) hmax (effect_native .max)) fun _ => ?_
  refine emits_then (emits_call (fun _ _ => rfl) hallocate (effect_native .allocate)) fun _ => ?_
  refine emits_then (emits_op rfl rfl) fun _ => ?_
  refine emits_then (emits_field (fun _ _ => rfl) hdata effect_getData) fun _ => ?_
  refine emits_then (emits_call (fun _ _ => rfl) hcopy (effect_native .copy)) fun _ => ?_
  refine emits_then (emits_op rfl rfl) fun _ => ?_
  exact emits_field (fun _ _ => rfl) hdata effect_putData

theorem writes_nestedGetterBody (hkind : f.kind = .object nested) :
    Writes p (nestedGetterBody owner layout f nested)
      (nestedGetterCode owner (.ofNat layout.stride) (.ofNat f.offset) f nested)
      fun target targets => targets = [target] := by
  rw [nestedGetterBody_eq]
  refine writes_interning (fun _ _ _ => Interning.gives_fieldRef) fun _ _ _ hflyweight => ?_
  refine writes_interning (fun _ _ _ => Interning.gives_classRef) fun _ _ h₁ hclass => ?_
  refine writes_interning (fun _ _ _ => Interning.gives_methodRef) fun _ _ h₂ hinit => ?_
  refine writes_interning (fun _ _ _ => Interning.gives_fieldRef) fun _ _ h₃ hslot => ?_
  refine writes_interning (fun _ _ _ => gives_bufferRef) fun _ _ h₄ hread => ?_
  have hslot := h₄.refAt? hslot
  have hinit := (h₃.trans h₄).refAt? hinit
  have hclass := (h₂.trans (h₃.trans h₄)).className hclass
  have hflyweight := (h₁.trans (h₂.trans (h₃.trans h₄))).refAt? hflyweight
  have hget := effect_getFlyweight owner hkind
  have hcreate := emits_createBody hkind hclass hinit hflyweight
  refine emits_bind emits_ensureSlot fun _ => ?_
  refine emits_then emits_this fun _ => ?_
  refine emits_then (emits_field (fun _ _ => rfl) hflyweight hget) fun _ => ?_
  refine writes_skippingThen hcreate fun target => ?_
  refine emits_then emits_this fun _ => ?_
  refine emits_then (emits_field (fun _ _ => rfl) hflyweight hget) fun _ => ?_
  refine emits_then (emits_op rfl rfl) fun _ => ?_
  refine emits_bind emits_pushAddress fun _ => ?_
  refine emits_then (emits_call (fun _ _ => rfl) hread (effect_readMethod .int)) fun _ => ?_
  refine emits_then (emits_field (fun _ _ => rfl) hslot effect_putIndex) fun _ => ?_
  exact emits_then (emits_returnValue (some f.kind)) fun _ => writes_pure rfl

theorem writes_capacityBody {stride : Int32} :
    Writes p (capacityBody owner stride) (capacityCode owner stride)
      fun result targets => targets = [result.1, result.2] := by
  rw [capacityBody_eq]
  refine writes_interning (fun _ _ _ => Interning.gives_fieldRef) fun _ _ _ hdata => ?_
  refine writes_interning (fun _ _ _ => Interning.gives_methodRef) fun _ _ h₁ hallocate => ?_
  refine writes_interning (fun _ _ _ => Interning.gives_methodRef) fun _ _ h₂ hsize => ?_
  refine writes_interning (fun _ _ _ => Interning.gives_methodRef) fun _ _ h₃ hrewind => ?_
  refine writes_interning (fun _ _ _ => Interning.gives_methodRef) fun _ _ h₄ hcopy => ?_
  refine writes_interning (fun _ _ _ => Interning.gives_methodRef) fun _ _ h₅ hmax => ?_
  have hcopy := h₅.refAt? hcopy
  have h₄ := h₄.trans h₅
  have hrewind := h₄.refAt? hrewind
  have h₃ := h₃.trans h₄
  have hsize := h₃.refAt? hsize
  have h₂ := h₂.trans h₃
  have hallocate := h₂.refAt? hallocate
  have hdata := (h₁.trans h₂).refAt? hdata
  have hempty := emits_allocateEmptyBody hallocate hdata
  have hgrow := emits_growBufferBody hdata hallocate hsize hrewind hcopy hmax
  refine emits_then (emits_field (fun _ _ => rfl) hdata effect_getData) fun _ => ?_
  refine writes_skippingThen hempty fun first => ?_
  refine emits_then (emits_op rfl rfl) fun _ => ?_
  refine emits_then (emits_pushInt 1) fun _ => ?_
  refine emits_then (emits_op rfl rfl) fun _ => ?_
  refine emits_then (emits_pushInt stride) fun _ => ?_
  refine emits_then (emits_op rfl rfl) fun _ => ?_
  refine emits_then (emits_op rfl rfl) fun _ => ?_
  refine emits_then (emits_field (fun _ _ => rfl) hdata effect_getData) fun _ => ?_
  refine emits_then (emits_call (fun _ _ => rfl) hsize (effect_native .size)) fun _ => ?_
  refine emits_then (emits_op rfl rfl) fun _ => ?_
  refine writes_skippingThen hgrow fun second => ?_
  exact emits_then (emits_returnValue none) fun _ => writes_pure rfl

end Packed

end ClassWeave
