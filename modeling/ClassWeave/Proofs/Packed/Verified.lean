import ClassWeave.Proofs.Packed.Apply
import ClassWeave.Proofs.Packed.Values
import ClassWeave.Proofs.Verifier.Design
import ClassWeave.Proofs.Weaving.Scan

/-!
# The methods of packed units pass the verifier

* `Packed.check?_ensureSlotCode`, `check?_addressCode` : the code that accessors share.
* `Packed.checked_staticInitDesign`, `checked_capacityDesign`, `checked_getterDesign`,
  `checked_setterDesign` : the designs fit their descriptors and have the frames that they need.
* `Packed.Applied.checked`, `Packed.Applied.verified` : all methods that packing appends are
  verified.
-/

namespace ClassWeave

namespace Packed

open Piece (check?)

variable {owner : String} {layout : PackedLayout} {f : PackedField}

/-! ### Code -/

section

variable {nested : String} {result? : Option ValueType} {code : List Piece}
  {locals : List (Option ValueType)} {stack : List ValueType} {stride offset : Int32}
  {kind : ValueKind}

theorem check?_staticInitCode {size : Int32} :
    check? none (staticInitCode owner size) ⟨[], []⟩ = some [] := by
  simp [staticInitCode, fieldType?_dataMember, Native.signature?_ref, Native.signature, Value.type]

/-- The second local variable holds nothing before the slot's end is known. -/
theorem check?_capacityCode : check? none (capacityCode owner stride) ⟨[some .int, none], []⟩ =
    some [⟨[some .int, none], []⟩, ⟨[some .int, some .int], []⟩] := by
  simp [capacityCode, allocateEmpty, growBuffer, fieldType?_dataMember, Native.signature?_ref,
    Native.signature, Value.type, Typing.stored, ValueType.slots]

/-- Making room for the slot leaves the types at hand as they are. -/
theorem check?_ensureSlotCode :
    check? result? (ensureSlotCode owner ++ code) ⟨some .ref :: locals, stack⟩ =
      check? result? code ⟨some .ref :: locals, stack⟩ := by
  simp [ensureSlotCode, fieldType?_indexMember, signature?_capacityCall, ValueType.slots]

/-- The buffer and an address lie on the operand stack afterwards. -/
theorem check?_addressCode :
    check? result? (addressCode owner stride offset ++ code) ⟨some .ref :: locals, stack⟩ =
      check? result? code ⟨some .ref :: locals, .int :: .ref :: stack⟩ := by
  simp [addressCode, fieldType?_indexMember, fieldType?_dataMember, ValueType.slots, Value.type]

theorem check?_getterCode (h : kind.isPrimitive) :
    check? (some kind.type) (getterCode owner stride offset kind) ⟨some .ref :: locals, []⟩ =
      some [] := by
  rw [getterCode, check?_ensureSlotCode, check?_addressCode]
  simp [signature?_readMethod, ValueKind.type_cell h]

theorem check?_setterCode (h : kind.isPrimitive) (hlocals : kind.type.slots ≤ locals.length + 1) :
    check? none (setterCode owner stride offset kind)
      ⟨some .ref :: some kind.type :: locals, []⟩ = some [] := by
  have hroom : 1 + kind.type.slots ≤ locals.length + 1 + 1 := by omega
  have hslots : ValueType.ref.slots = 1 := rfl
  rw [setterCode, check?_ensureSlotCode, check?_addressCode]
  simp [signature?_writeMethod, ValueKind.type_cell h, hroom, hslots]

theorem check?_nestedGetterCode (h : f.kind = .object nested)
    (hflyweight : Descriptor.fieldType? (flyweightMember owner f).descriptor = some .ref) :
    check? (some .ref) (nestedGetterCode owner stride offset f nested) ⟨[some .ref], []⟩ =
      some [⟨[some .ref], []⟩] := by
  have htype : f.kind.type = .ref := by rw [h]; rfl
  have hcell : ValueKind.int.cell.type = .int := rfl
  rw [nestedGetterCode, check?_ensureSlotCode, htype]
  simp [hflyweight, ValueType.slots, createFlyweight, signature?_constructorCall,
    check?_addressCode, signature?_readMethod, fieldType?_indexMember, hcell]

theorem check?_nestedSetterCode (h : f.kind = .object nested) :
    check? none (nestedSetterCode owner stride offset f nested)
      ⟨some .ref :: some .ref :: locals, []⟩ = some [] := by
  have htype : f.kind.type = .ref := by rw [h]; rfl
  have hcell : ValueKind.int.cell.type = .int := rfl
  rw [nestedSetterCode, check?_ensureSlotCode, check?_addressCode, htype]
  simp [signature?_writeMethod, fieldType?_indexMember, hcell, ValueType.slots]

end

/-! ### Designs -/

theorem checked_staticInitDesign : (staticInitDesign owner layout).Checked := by
  have hsignature : Descriptor.signature? Scan.plainDescriptor =
      some { parameters := [], result? := none } := by decide
  have haccess : Access.staticFlag.has Access.staticFlag = true := by decide
  have hinitial : (staticInitDesign owner layout).initial = [] := by
    rw [MethodDesign.initial, staticInitDesign, haccess, hsignature]
    rfl
  refine ⟨⟨_, hsignature, ?_⟩, ?_, MethodDesign.deepest_le spanOf_staticInitDesign⟩
  · rw [hinitial]
    exact check?_staticInitCode
  · rw [hinitial]
    exact Nat.zero_le _

theorem checked_capacityDesign : (capacityDesign owner layout).Checked := by
  refine ⟨⟨_, signature?_capacityCall owner, ?_⟩, ?_,
    MethodDesign.deepest_le spanOf_capacityDesign⟩
  · rw [initial_capacityDesign]
    exact check?_capacityCode
  · rw [initial_capacityDesign]
    exact (by decide : 1 ≤ 2)

/-- What can be packed is of fixed size, if it is no object. -/
theorem isPrimitive_of_isPackable {index : TypeIndex} {kind : ValueKind}
    (h : kind.isPackable index owner) (hkind : ∀ nested, kind ≠ .object nested) :
    kind.isPrimitive := by
  cases kind with
  | object nested => exact absurd rfl (hkind nested)
  | array => cases h
  | _ => rfl

section

variable {index : TypeIndex} (hparse : ValueKind.parse f.kind.descriptor = .ok f.kind)
  (hplain : f.kind.Plain) (hpackable : f.kind.isPackable index owner)
include hparse hplain hpackable

theorem checked_getterDesign : (getterDesign owner layout f).Checked := by
  refine ⟨⟨_, Descriptor.signature?_giving hparse hplain, ?_⟩, ?_,
    MethodDesign.deepest_le spanOf_getterDesign⟩
  · have hstart : Typing.start (getterDesign owner layout f).maxLocals.toNat [.ref] =
        ⟨[some .ref], []⟩ := (by decide : Typing.start 1 [.ref] = ⟨[some .ref], []⟩)
    rw [initial_getterDesign, hstart, MethodDesign.typings]
    by_cases hobject : ∃ nested, f.kind = .object nested
    · obtain ⟨nested, hkind⟩ := hobject
      have hfield := Descriptor.fieldType?_of_parse hparse hplain
      have htype : f.kind.type = .ref := by rw [hkind]; rfl
      rw [htype] at hfield ⊢
      rw [getterDesign_code_object hkind, getterDesign_frames_object hkind]
      exact check?_nestedGetterCode hkind hfield
    · have hkind : ∀ nested, f.kind ≠ .object nested := fun nested h => hobject ⟨nested, h⟩
      rw [getterDesign_code hkind, getterDesign_frames hkind]
      exact check?_getterCode (isPrimitive_of_isPackable hpackable hkind)
  · rw [initial_getterDesign]
    exact (by decide : 1 ≤ 1)

theorem checked_setterDesign : (setterDesign owner layout f).Checked := by
  have hsignature := Descriptor.signature?_taking hparse hplain
  have haccess : accessorAccess.has Access.staticFlag = false := by decide
  have hinitial : (setterDesign owner layout f).initial = [.ref, f.kind.type] := by
    rw [MethodDesign.initial, setterDesign, setterDescriptor, haccess, hsignature]
    rfl
  have hlocals : (setterDesign owner layout f).maxLocals.toNat = 1 + f.kind.type.slots := by
    show (UInt16.ofNat (1 + f.kind.slots)).toNat = _
    cases f.kind <;> rfl
  have hstart : Typing.start (1 + f.kind.type.slots) [.ref, f.kind.type] =
      ⟨some .ref :: some f.kind.type :: .replicate (f.kind.type.slots - 1) none, []⟩ := by
    cases f.kind.type <;> rfl
  have hslots : 1 ≤ f.kind.type.slots := by
    cases f.kind.type <;> decide
  refine ⟨⟨_, hsignature, ?_⟩, ?_, MethodDesign.deepest_le spanOf_setterDesign⟩
  · rw [hinitial, hlocals, hstart, MethodDesign.typings]
    by_cases hobject : ∃ nested, f.kind = .object nested
    · obtain ⟨nested, hkind⟩ := hobject
      have htype : f.kind.type = .ref := by rw [hkind]; rfl
      rw [setterDesign_code_object hkind, htype]
      exact check?_nestedSetterCode hkind
    · have hkind : ∀ nested, f.kind ≠ .object nested := fun nested h => hobject ⟨nested, h⟩
      rw [setterDesign_code hkind]
      refine check?_setterCode (isPrimitive_of_isPackable hpackable hkind) ?_
      rw [List.length_replicate]
      omega
  · rw [hinitial, hlocals]
    simp [ValueType.slotsOf, ValueType.slots]

end

/-! ### The new methods -/

/-- The names and the descriptors of the methods that every packed unit gains. -/
def methodTexts (layout : PackedLayout) : List (String × String) :=
  (capacityMethod, capacityDescriptor) :: layout.fields.flatMap fun f =>
    [(getterName f.name, getterDescriptor f), (setterName f.name, setterDescriptor f)]

theorem map_texts_designs : (capacityDesign owner layout :: accessorDesigns owner layout).map
    MethodDesign.texts = methodTexts layout := by
  rw [List.map_cons, accessorDesigns, List.map_flatMap]
  rfl

/-- What packing appends fits its descriptors, if the unit has plain types. -/
theorem Applied.checked {index : TypeIndex} {u t : ClassFile}
    (h : Applied index owner layout u t) (hplain : u.HasPlainTypes)
    (hvalid : u.validate .packed index = .ok ()) :
    ∀ d ∈ capacityDesign owner layout :: accessorDesigns owner layout, d.Checked := by
  obtain ⟨view, hview, rfl⟩ := h.view
  intro d hd
  rcases List.mem_cons.1 hd with rfl | hd
  · exact checked_capacityDesign
  obtain ⟨f, hf, hd⟩ := List.mem_flatMap.1 hd
  have hpackable := isPackable_of_validate hvalid h.name hview hf
  -- the kind of a field was parsed from a field of the unit
  obtain ⟨-, g, hg, hstatic, -, hkind⟩ := PackedLayout.mem_ofFields hf
  obtain ⟨m, hm, hviewed⟩ := exists_of_mem_right (except_mapM_eq_ok.1 hview) hg
  obtain ⟨name, descriptor, kind, -, hdescriptor, hkindOf, rfl⟩ := ClassFile.viewOf_eq_ok.1 hviewed
  have hinstance : m.isInstance = true := by simpa using hstatic
  have hparse : ValueKind.parse f.kind.descriptor = .ok f.kind :=
    hkind ▸ ValueKind.parse_descriptor_of_parse hkindOf
  have hplain : f.kind.Plain := hkind ▸ hplain m hm hinstance descriptor kind hdescriptor hkindOf
  simp only [List.mem_cons, List.not_mem_nil, or_false] at hd
  rcases hd with rfl | rfl
  · exact checked_getterDesign hparse hplain hpackable
  · exact checked_setterDesign hparse hplain hpackable

/-- **All methods that packing appends are verified**, if the unit has plain types. -/
theorem Applied.verified {index : TypeIndex} {u t : ClassFile}
    (h : Applied index owner layout u t) (hplain : u.HasPlainTypes)
    (hvalid : u.validate .packed index = .ok ()) : ∃ texts,
      (texts = methodTexts layout ∨
        texts = (staticInitName, Scan.plainDescriptor) :: methodTexts layout) ∧
      List.Forall₂ (Member.VerifiedAs u.needsFrames t.pool) texts
        (t.methods.drop u.methods.length) := by
  have hchecked := h.checked hplain hvalid
  obtain ⟨inits, rfl | ⟨rfl, -⟩, hmethods⟩ := h.methods
  · have hverified := MethodDesign.forall₂_verifiedAs hmethods hchecked
    rw [List.nil_append, map_texts_designs] at hverified
    exact ⟨_, .inl rfl, hverified⟩
  · have hverified := MethodDesign.forall₂_verifiedAs hmethods
      (List.forall_mem_cons.2 ⟨checked_staticInitDesign, hchecked⟩)
    rw [List.singleton_append, List.map_cons, map_texts_designs] at hverified
    exact ⟨_, .inr rfl, hverified⟩

end Packed

end ClassWeave
