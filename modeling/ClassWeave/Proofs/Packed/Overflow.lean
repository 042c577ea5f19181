import ClassWeave.Proofs.Packed.Apply
import ClassWeave.Proofs.Packed.LeastLayout
import ClassWeave.Proofs.Weaving.Overflow

/-!
# What packing adds can only overflow

Adding the members of a packed unit checks that the distances in the layout are integers, that the
branches of the generated bodies are within reach and that their frames can be described.  A layout
of as many fields as a unit can have passes all of these checks, so nothing is left but the room in
the pool, and the slots that are needed can be counted.

* `PackedLayout.Fits`, `fits_ofFields` : layouts whose distances are integers.
* `Packed.short_capacityBody`, `short_nestedGetterBody` : generated bodies are short.
* `Packed.exists_capacityFrames`, `exists_nestedFrames` : their frames can be described.
* `Packed.takes_addSharedFields`, `takes_addMethods` : the slots that the members take.
-/

namespace ClassWeave

/-! ### Layouts -/

namespace PackedLayout

/-- The distances that the code of a layout mentions are integers. -/
structure Fits (layout : PackedLayout) : Prop where
  /-- The size of the first buffer. -/
  buffer : layout.stride * Packed.initialSlots < 2 ^ 31
  /-- Where a field lies in its slot. -/
  offset : ∀ f ∈ layout.fields, f.offset < 2 ^ 31

theorem Fits.stride {layout : PackedLayout} (h : layout.Fits) : layout.stride < 2 ^ 31 := by
  have hbuffer : layout.stride * 64 < 2 ^ 31 := h.buffer
  omega

/-- The layout of as many fields as a unit can have fits. -/
theorem fits_ofFields {fs : List Field} (h : fs.length < 2 ^ 16) : (ofFields fs).Fits := by
  have hstride := stride_le fs
  have hinstance : (instanceFields fs).length ≤ fs.length := List.length_filter_le _ _
  have hbuffer : (ofFields fs).stride * 64 < 2 ^ 31 := by omega
  refine ⟨hbuffer, fun f hf => ?_⟩
  have hend := end_le_stride hf
  omega

/-- A layout has no more fields than it was made of. -/
theorem length_fields_le (fs : List Field) : (ofFields fs).fields.length ≤ fs.length :=
  calc (ofFields fs).fields.length = (instanceFields fs).length :=
        (isPlacement_place 0 (instanceFields fs)).entries.length_eq.symm
    _ ≤ fs.length := List.length_filter_le _ _

end PackedLayout

namespace Packed

open Emission Interning Growing

variable {owner nested : String} {layout : PackedLayout} {f : PackedField}

theorem exists_strideOf (h : layout.Fits) : ∃ stride, strideOf layout = .ok stride :=
  ⟨_, strideOf_eq_ok.2 ⟨h.stride, rfl⟩⟩

theorem exists_offsetOf (h : layout.Fits) (hf : f ∈ layout.fields) :
    ∃ offset, offsetOf f = .ok offset :=
  ⟨_, offsetOf_eq_ok.2 ⟨h.offset f hf, rfl⟩⟩

theorem exists_initialSize (h : layout.Fits) : ∃ size, initialSize layout = .ok size := by
  obtain ⟨stride, hstride⟩ := exists_strideOf h
  refine ⟨.ofNat (layout.stride * initialSlots), except_bind_eq_ok.2 ⟨stride, hstride, ?_⟩⟩
  rw [if_pos h.buffer]
  rfl

/-! ### Bodies -/

theorem short_staticInitBody {size : Int32} : Short 12 13 (staticInitBody owner size) := by
  refine .interning takes_methodRef fun _ => .interning takes_fieldRef fun _ => ?_
  refine (short_pushInt size).step fun _ => short_op16.step fun _ => short_op16.step fun _ => ?_
  exact short_returnValue none

theorem short_ensureSlot : Short 9 12 (ensureSlot owner) := by
  refine .interning takes_fieldRef fun _ => .interning takes_methodRef fun _ => ?_
  exact short_this.step fun _ => short_op16.step fun _ => short_op16

theorem short_pushAddress (h : layout.Fits) (hf : f ∈ layout.fields) :
    Short 21 14 (pushAddress owner layout f) := by
  obtain ⟨stride, hstride⟩ := exists_strideOf h
  obtain ⟨offset, hoffset⟩ := exists_offsetOf h hf
  refine .interning takes_fieldRef fun _ => .interning takes_fieldRef fun _ => ?_
  refine .lift hstride (.lift hoffset ?_)
  refine short_op16.step fun _ => short_this.step fun _ => short_op16.step fun _ => ?_
  refine (short_pushInt stride).step fun _ => short_op.step fun _ => ?_
  exact (short_pushInt offset).step fun _ => short_op

theorem short_getterBody (h : layout.Fits) (hf : f ∈ layout.fields) :
    Short 36 32 (getterBody owner layout f) := by
  refine .interning takes_methodRef fun _ => ?_
  refine short_ensureSlot.bind fun _ => (short_pushAddress h hf).bind fun _ => ?_
  exact short_op16.step fun _ => short_returnValue _

theorem short_setterBody (h : layout.Fits) (hf : f ∈ layout.fields) :
    Short 42 32 (setterBody owner layout f) := by
  refine .interning takes_methodRef fun _ => ?_
  refine short_ensureSlot.bind fun _ => (short_pushAddress h hf).bind fun _ => ?_
  refine (short_loadParameter f.kind).step fun _ => short_op16.step fun _ => ?_
  exact short_op.step fun _ => short_returnValue none

theorem short_nestedSetterBody (h : layout.Fits) (hf : f ∈ layout.fields) :
    Short 45 38 (nestedSetterBody owner layout f nested) := by
  refine .interning takes_fieldRef fun _ => .interning takes_methodRef fun _ => ?_
  refine short_ensureSlot.bind fun _ => (short_pushAddress h hf).bind fun _ => ?_
  refine (short_loadParameter f.kind).step fun _ => short_op16.step fun _ => ?_
  exact short_op16.step fun _ => short_op.step fun _ => short_returnValue none

theorem short_allocateEmptyBody {allocate data : UInt16} :
    Short 9 1 (allocateEmptyBody allocate data) :=
  (short_pushInt 0).step fun _ => short_op16.step fun _ => short_op16

theorem short_growBufferBody {data allocate capacity rewind copy greater : UInt16} :
    Short 45 1 (growBufferBody data allocate capacity rewind copy greater) := by
  refine short_op16.step fun _ => short_op16.step fun _ => short_op.step fun _ => ?_
  refine short_op.step fun _ => short_op16.step fun _ => short_op16.step fun _ => ?_
  refine (short_pushInt 2).step fun _ => short_op.step fun _ => short_op16.step fun _ => ?_
  refine short_op16.step fun _ => short_op.step fun _ => short_op16.step fun _ => ?_
  exact short_op16.step fun _ => short_op.step fun _ => short_op16

theorem short_capacityBody (stride : Int32) : Short 93 40 (capacityBody owner stride) := by
  rw [capacityBody_eq]
  refine .interning takes_fieldRef fun _ => .interning takes_methodRef fun _ => ?_
  refine .interning takes_methodRef fun _ => .interning takes_methodRef fun _ => ?_
  refine .interning takes_methodRef fun _ => .interning takes_methodRef fun _ => ?_
  refine short_op16.step fun _ => short_allocateEmptyBody.skippingThen fun first => ?_
  refine short_op.step fun _ => (short_pushInt 1).step fun _ => short_op.step fun _ => ?_
  refine (short_pushInt stride).step fun _ => short_op.step fun _ => short_op.step fun _ => ?_
  refine short_op16.step fun _ => short_op16.step fun _ => short_op.step fun _ => ?_
  refine short_growBufferBody.skippingThen fun second => ?_
  exact (short_returnValue none).step fun _ => short_pure _

theorem short_createBody {nestedClass nestedInit flyweight : UInt16} :
    Short 15 0 (createBody nestedClass nestedInit flyweight) := by
  refine short_this.step fun _ => short_op16.step fun _ => short_op.step fun _ => ?_
  exact short_op16.step fun _ => short_op16

theorem short_nestedGetterBody (h : layout.Fits) (hf : f ∈ layout.fields) :
    Short 72 52 (nestedGetterBody owner layout f nested) := by
  rw [nestedGetterBody_eq]
  refine .interning takes_fieldRef fun _ => .interning takes_classRef fun _ => ?_
  refine .interning takes_methodRef fun _ => .interning takes_fieldRef fun _ => ?_
  refine .interning takes_methodRef fun _ => short_ensureSlot.bind fun _ => ?_
  refine short_this.step fun _ => short_op16.step fun _ => ?_
  refine short_createBody.skippingThen fun target => ?_
  refine short_this.step fun _ => short_op16.step fun _ => short_op.step fun _ => ?_
  refine (short_pushAddress h hf).bind fun _ => short_op16.step fun _ => short_op16.step fun _ => ?_
  exact (short_returnValue _).step fun _ => short_pure target

/-! ### Frames -/

variable {p q : ConstantPool} {body : Body}

theorem farthest_capacityCode (stride : Int32) :
    Piece.farthest 0 (capacityCode owner stride) = [15, 90] := rfl

theorem farthest_nestedGetterCode (stride offset : Int32) :
    Piece.farthest 0 (nestedGetterCode owner stride offset f nested) = [33] := rfl

/-- Both branches of the method that makes the buffer large enough lead to places that its frames
can tell. -/
theorem exists_capacityFrames {ends : Nat × Nat}
    (h : Gives ((capacityBody owner (.ofNat layout.stride)).run {}) p (ends, body) q) :
    ∃ frames, capacityFrames ends.1 ends.2 = .ok frames := by
  have hspan : Piece.spanOf (capacityDesign owner layout).code ≤ 1000 := spanOf_capacityDesign
  have hroom := hasRoom_of_spanOf_le hspan
  obtain ⟨-, targets, hcode, rfl, -⟩ := writes_capacityBody.whole hroom h
  have hle := hcode.targets_le (Nat.le_refl 0)
  rw [farthest_capacityCode] at hle
  obtain ⟨hfirst, hrest⟩ := List.forall₂_cons.1 hle
  obtain ⟨hsecond, -⟩ := List.forall₂_cons.1 hrest
  simp only at hfirst hsecond
  unfold capacityFrames
  rw [if_neg (by omega), if_neg (by omega)]
  exact ⟨_, rfl⟩

/-- So does the branch of the getter of a nested component. -/
theorem exists_nestedFrames (hkind : f.kind = .object nested) {target : Nat}
    (h : Gives ((nestedGetterBody owner layout f nested).run {}) p (target, body) q) :
    ∃ frames, nestedFrames target = .ok frames := by
  have hspan : Piece.spanOf (getterDesign owner layout f).code ≤ 1000 := spanOf_getterDesign
  rw [getterDesign_code_object hkind] at hspan
  have hroom := hasRoom_of_spanOf_le hspan
  obtain ⟨-, targets, hcode, rfl, -⟩ := (writes_nestedGetterBody hkind).whole hroom h
  have hle := hcode.targets_le (Nat.le_refl 0)
  rw [farthest_nestedGetterCode] at hle
  obtain ⟨htarget, -⟩ := List.forall₂_cons.1 hle
  simp only at htarget
  unfold nestedFrames
  rw [if_neg (by omega)]
  exact ⟨_, rfl⟩

/-! ### Members -/

theorem takes_addSharedFields (h : layout.Fits) : Growing.Takes 8 (addSharedFields layout) := by
  obtain ⟨stride, hstride⟩ := exists_strideOf h
  have hvalue : Interning.Takes 1 (.integer stride) := takes_constant rfl
  refine takes_addField.bind fun _ => takes_addField.bind fun _ => .lift hstride ?_
  refine (takes_interning hvalue).bind fun value => ?_
  exact (takes_interning (takes_utf8 _)).bind fun name => takes_addField

theorem takes_addStaticInit {size : Int32} : Growing.Takes 17 (do
    let (_, body) ← Growing.emission (staticInitBody owner size)
    Growing.addMethod Access.staticFlag staticInitName Scan.plainDescriptor body 0 none) :=
  .emission short_staticInitBody (by decide) fun _ _ _ _ _ => takes_addMethod

theorem takes_addCapacityMethod (h : layout.Fits) :
    Growing.Takes 44 (addCapacityMethod owner layout) := by
  refine .lift (strideOf_eq_ok.2 ⟨h.stride, rfl⟩) ?_
  refine .emission (short_capacityBody _) (by decide) fun p ends body q hgives => ?_
  obtain ⟨frames, hframes⟩ := exists_capacityFrames hgives
  exact .lift hframes takes_addMethod

theorem takes_addAccessors (h : layout.Fits) (hf : f ∈ layout.fields) :
    Growing.Takes 72 (addAccessors owner layout f) := by
  refine .emission (short_getterBody h hf) (by decide) fun _ _ _ _ _ => ?_
  refine takes_addMethod.bind fun _ => ?_
  exact .emission (short_setterBody h hf) (by decide) fun _ _ _ _ _ => takes_addMethod

theorem takes_addNestedAccessors (h : layout.Fits) (hf : f ∈ layout.fields)
    (hkind : f.kind = .object nested) :
    Growing.Takes 100 (addNestedAccessors owner layout f nested) := by
  refine takes_addField.bind fun _ => ?_
  refine .emission (short_nestedGetterBody h hf) (by decide) fun p target body q hgives => ?_
  obtain ⟨frames, hframes⟩ := exists_nestedFrames hkind hgives
  refine .lift hframes (takes_addMethod.bind fun _ => ?_)
  exact .emission (short_nestedSetterBody h hf) (by decide) fun _ _ _ _ _ => takes_addMethod

theorem takes_addField (h : layout.Fits) (hf : f ∈ layout.fields) :
    Growing.Takes 100 (addField owner layout f) := by
  unfold addField
  cases hkind : f.kind with
  | object nested => exact takes_addNestedAccessors h hf hkind
  | _ => exact (takes_addAccessors h hf).mono (by decide)

/-- **Adding the methods** of a layout that fits fails only as the pool is full. -/
theorem takes_addMethods (h : layout.Fits) :
    Growing.Takes (100 * layout.fields.length + 44) (addMethods owner layout) :=
  (takes_addCapacityMethod h).bind fun _ => takes_forM fun _ hf => takes_addField h hf

end Packed

end ClassWeave
