import ClassWeave.Proofs.ClassFile.Questions
import ClassWeave.Proofs.Descriptor
import ClassWeave.Proofs.Packed.Code
import ClassWeave.Proofs.Packed.Layout
import ClassWeave.Proofs.Weaving.Edit

/-!
# What packing does to a unit

* `Packed.sharedFields`, `flyweightFields` : the fields that a packed unit gains.
* `Packed.staticInitDesign`, `capacityDesign`, `getterDesign`, `setterDesign` : the methods that it
  gains.
* `Packed.Applied`, `Packed.gives_apply` : all that the strategy changes.
-/

namespace ClassWeave

namespace Packed

/-! ### Designs of the new members -/

/-- The fields that every packed unit gains. -/
def sharedFields (layout : PackedLayout) : List FieldDesign :=
  [{ access := Access.publicFlag ||| Access.syntheticFlag, name := indexField, descriptor := "I" },
    { access := Access.privateFlag ||| Access.staticFlag ||| Access.syntheticFlag,
      name := dataField, descriptor := byteBufferDescriptor },
    { access := Access.publicFlag ||| Access.staticFlag ||| Access.finalFlag |||
        Access.syntheticFlag,
      name := strideField, descriptor := "I", constant? := some (.ofNat layout.stride) }]

/-- The field with the object that stands for a nested component. -/
def flyweightDesign (f : PackedField) : FieldDesign :=
  { access := Access.privateFlag ||| Access.syntheticFlag, name := flyweightName f.name,
    descriptor := f.kind.descriptor }

/-- The fields that are gained for a field of the layout. -/
def flyweightFields (f : PackedField) : List FieldDesign :=
  match f.kind with
  | .object _ => [flyweightDesign f]
  | _ => []

variable (owner : String) (layout : PackedLayout) (f : PackedField)

/-- The method that sets up the class. -/
def staticInitDesign : MethodDesign :=
  { access := Access.staticFlag, name := staticInitName, descriptor := Scan.plainDescriptor,
    code := staticInitCode owner (.ofNat (layout.stride * initialSlots)), maxLocals := 0 }

/-- The method that makes the buffer large enough for a slot. -/
def capacityDesign : MethodDesign :=
  { access := Access.privateFlag ||| Access.staticFlag ||| Access.syntheticFlag,
    name := capacityMethod, descriptor := capacityDescriptor,
    code := capacityCode owner (.ofNat layout.stride), maxLocals := 2,
    frames := [[.int], [.int, .int]] }

/-- The getter of a field. -/
def getterDesign : MethodDesign :=
  { access := accessorAccess, name := getterName f.name, descriptor := getterDescriptor f,
    code := match f.kind with
      | .object nested =>
        nestedGetterCode owner (.ofNat layout.stride) (.ofNat f.offset) f nested
      | kind => getterCode owner (.ofNat layout.stride) (.ofNat f.offset) kind
    maxLocals := 1
    frames := match f.kind with
      | .object _ => [[.ref]]
      | _ => [] }

/-- The setter of a field. -/
def setterDesign : MethodDesign :=
  { access := accessorAccess, name := setterName f.name, descriptor := setterDescriptor f,
    code := match f.kind with
      | .object nested =>
        nestedSetterCode owner (.ofNat layout.stride) (.ofNat f.offset) f nested
      | kind => setterCode owner (.ofNat layout.stride) (.ofNat f.offset) kind
    maxLocals := UInt16.ofNat (1 + f.kind.slots) }

/-- The accessors of all fields. -/
def accessorDesigns : List MethodDesign :=
  layout.fields.flatMap fun f => [getterDesign owner layout f, setterDesign owner layout f]

variable {owner} {layout} {f}

/-! ### The lengths of their code -/

theorem hasRoom_of_spanOf_le {code : List Piece} (h : Piece.spanOf code ≤ 1000) :
    Body.HasRoom {} code := by
  have hfar : 1000 ≤ Body.farthestStart := by decide
  have hsize : ({} : Body).code.size = 0 := rfl
  exact .inr (by omega)

theorem spanOf_staticInitDesign : Piece.spanOf (staticInitDesign owner layout).code ≤ 1000 := by
  simp [staticInitDesign, staticInitCode, Piece.spanOf, Piece.span]

theorem spanOf_capacityDesign : Piece.spanOf (capacityDesign owner layout).code ≤ 1000 := by
  simp [capacityDesign, capacityCode, allocateEmpty, growBuffer, Piece.spanOf, Piece.span]

theorem spanOf_getterDesign : Piece.spanOf (getterDesign owner layout f).code ≤ 1000 := by
  unfold getterDesign
  split <;> simp [getterCode, nestedGetterCode, createFlyweight, ensureSlotCode, addressCode,
    Piece.spanOf, Piece.span]

theorem spanOf_setterDesign : Piece.spanOf (setterDesign owner layout f).code ≤ 1000 := by
  unfold setterDesign
  split <;> simp [setterCode, nestedSetterCode, ensureSlotCode, addressCode, Piece.spanOf,
    Piece.span]

/-! ### The new members realize them -/

open Growing

variable {framed : Bool} {p : ConstantPool}

theorem adds_addStride : Adds framed p (addStride layout)
    [{ access := Access.publicFlag ||| Access.staticFlag ||| Access.finalFlag |||
        Access.syntheticFlag,
       name := strideField, descriptor := "I", constant? := some (.ofNat layout.stride) }] [] := by
  refine adds_lift fun stride hstride => ?_
  obtain ⟨-, rfl⟩ := strideOf_eq_ok.1 hstride
  refine adds_interning (fun _ _ _ => Interning.gives_constant) fun value _ _ hvalue => ?_
  refine adds_interning (fun _ _ _ => Interning.gives_utf8) fun name _ h hname => ?_
  exact adds_addField fun q hq => ⟨name, value, rfl, hq.utf8 hname, (h.trans hq).get? hvalue⟩

theorem adds_addSharedFields : Adds framed p (addSharedFields layout) (sharedFields layout) [] := by
  refine adds_fieldThen (adds_addField fun _ _ => rfl) fun _ => ?_
  refine adds_fieldThen (adds_addField fun _ _ => rfl) fun _ => ?_
  exact adds_addStride

theorem initial_capacityDesign : (capacityDesign owner layout).initial = [.int] :=
  (by decide : (if (Access.privateFlag ||| Access.staticFlag ||| Access.syntheticFlag).has
    Access.staticFlag then [] else [.ref]) ++ ((Descriptor.signature? capacityDescriptor).map
      (·.parameters)).getD [] = [ValueType.int])

theorem initial_getterDesign : (getterDesign owner layout f).initial = [.ref] := by
  have haccess : accessorAccess.has Access.staticFlag = false := by decide
  rw [MethodDesign.initial, getterDesign, getterDescriptor, haccess, Descriptor.parameters_giving]
  rfl

theorem getterDesign_frames (hkind : ∀ nested, f.kind ≠ .object nested) :
    (getterDesign owner layout f).frames = [] := by
  unfold getterDesign
  cases hf : f.kind with
  | object nested => exact absurd hf (hkind nested)
  | _ => rfl

theorem getterDesign_frames_object {nested : String} (hkind : f.kind = .object nested) :
    (getterDesign owner layout f).frames = [[.ref]] := by
  simp only [getterDesign, hkind]

/-- The frames of the method that makes the buffer large enough. -/
theorem framed_capacityDesign {first second : Nat} {payload : Bytes} (hlt : first < second)
    (h : capacityFrames first second = .ok payload) :
    (capacityDesign owner layout).Framed [first, second] (some payload) := by
  unfold capacityFrames at h
  split_ifs at h with hfirst hsecond
  cases h
  refine ⟨List.cons_ne_nil _ _, ?_⟩
  rw [initial_capacityDesign, StackMap.decode_same_append (by omega) hlt (by omega)]
  rfl

/-- The frame of the getter of a nested component. -/
theorem framed_getterDesign {nested : String} (hkind : f.kind = .object nested) {target : Nat}
    {payload : Bytes} (h : nestedFrames target = .ok payload) :
    (getterDesign owner layout f).Framed [target] (some payload) := by
  unfold nestedFrames at h
  split_ifs at h with htarget
  cases h
  rw [MethodDesign.Framed, getterDesign_frames_object hkind, initial_getterDesign,
    StackMap.decode_same (by omega)]
  exact ⟨List.cons_ne_nil _ _, rfl⟩

theorem adds_addCapacityMethod :
    Adds framed p (addCapacityMethod owner layout) [] [capacityDesign owner layout] := by
  refine adds_lift fun stride hstride => ?_
  obtain ⟨-, rfl⟩ := strideOf_eq_ok.1 hstride
  refine adds_emission (fun _ => writes_capacityBody) (hasRoom_of_spanOf_le spanOf_capacityDesign)
    fun ends body targets _ _ hbody htargets hdepths => ?_
  subst htargets
  have hlt : ends.1 < ends.2 := by simpa using hbody.pairwise_targets
  exact adds_lift fun frames hframes =>
    adds_addMethod hbody hdepths (framed_capacityDesign hlt hframes)

theorem getterDesign_code (hkind : ∀ nested, f.kind ≠ .object nested) :
    (getterDesign owner layout f).code =
      getterCode owner (.ofNat layout.stride) (.ofNat f.offset) f.kind := by
  unfold getterDesign
  cases hf : f.kind with
  | object nested => exact absurd hf (hkind nested)
  | _ => rfl

theorem setterDesign_code (hkind : ∀ nested, f.kind ≠ .object nested) :
    (setterDesign owner layout f).code =
      setterCode owner (.ofNat layout.stride) (.ofNat f.offset) f.kind := by
  unfold setterDesign
  cases hf : f.kind with
  | object nested => exact absurd hf (hkind nested)
  | _ => rfl

theorem getterDesign_code_object {nested : String} (hkind : f.kind = .object nested) :
    (getterDesign owner layout f).code =
      nestedGetterCode owner (.ofNat layout.stride) (.ofNat f.offset) f nested := by
  simp only [getterDesign, hkind]

theorem setterDesign_code_object {nested : String} (hkind : f.kind = .object nested) :
    (setterDesign owner layout f).code =
      nestedSetterCode owner (.ofNat layout.stride) (.ofNat f.offset) f nested := by
  simp only [setterDesign, hkind]

theorem adds_addAccessors (hkind : ∀ nested, f.kind ≠ .object nested) :
    Adds framed p (addAccessors owner layout f) []
      [getterDesign owner layout f, setterDesign owner layout f] := by
  refine adds_emission (fun _ => getterDesign_code hkind ▸ emits_getterBody)
    (hasRoom_of_spanOf_le spanOf_getterDesign) fun _ getter _ _ _ hbody _ hdepths => ?_
  refine adds_methodThen (adds_addMethod hbody hdepths (getterDesign_frames hkind)) fun _ => ?_
  refine adds_emission (fun _ => setterDesign_code hkind ▸ emits_setterBody)
    (hasRoom_of_spanOf_le spanOf_setterDesign) fun _ setter _ _ _ hbody _ hdepths => ?_
  exact adds_addMethod hbody hdepths rfl

theorem adds_addNestedAccessors {nested : String} (hkind : f.kind = .object nested) :
    Adds framed p (addNestedAccessors owner layout f nested) (flyweightFields f)
      [getterDesign owner layout f, setterDesign owner layout f] := by
  have hfields : flyweightFields f = [flyweightDesign f] := by simp only [flyweightFields, hkind]
  have hlocals : (setterDesign owner layout f).maxLocals = 2 := by
    simp only [setterDesign, hkind, ValueKind.slots]
    rfl
  rw [hfields]
  refine adds_fieldThen (adds_addField fun _ _ => rfl) fun _ => ?_
  refine adds_emission (fun _ => getterDesign_code_object hkind ▸ writes_nestedGetterBody hkind)
    (hasRoom_of_spanOf_le spanOf_getterDesign)
    fun target getter _ _ _ hbody htargets hdepths => ?_
  subst htargets
  refine adds_lift fun frames hframes => ?_
  refine adds_methodThen (adds_addMethod hbody hdepths (framed_getterDesign hkind hframes))
    fun _ => ?_
  refine adds_emission (fun _ => setterDesign_code_object hkind ▸ emits_nestedSetterBody)
    (hasRoom_of_spanOf_le spanOf_setterDesign) fun _ setter _ _ _ hbody _ hdepths => ?_
  rw [← hlocals]
  exact adds_addMethod hbody hdepths rfl

theorem adds_addField (f : PackedField) : Adds framed p (addField owner layout f)
    (flyweightFields f) [getterDesign owner layout f, setterDesign owner layout f] := by
  unfold addField
  cases hkind : f.kind with
  | object nested => exact adds_addNestedAccessors hkind
  | _ =>
    have hfields : flyweightFields f = [] := by simp only [flyweightFields, hkind]
    rw [hfields]
    exact adds_addAccessors (by simp [hkind])

theorem adds_addMethods : Adds framed p (addMethods owner layout)
    (layout.fields.flatMap flyweightFields)
    (capacityDesign owner layout :: accessorDesigns owner layout) :=
  adds_methodThen adds_addCapacityMethod fun _ => adds_forM adds_addField layout.fields

theorem eq_of_mem_flyweightFields {d : FieldDesign} (h : d ∈ flyweightFields f) :
    d = flyweightDesign f := by
  unfold flyweightFields at h
  split at h
  · exact List.mem_singleton.1 h
  · cases h

theorem getterDesign_code_ne_nil : (getterDesign owner layout f).code ≠ [] := by
  unfold getterDesign
  split <;> exact List.cons_ne_nil _ _

theorem setterDesign_code_ne_nil : (setterDesign owner layout f).code ≠ [] := by
  unfold setterDesign
  split <;> exact List.cons_ne_nil _ _

/-! ### The whole strategy -/

/-- The accessor that takes the place of an access to a field: the getter or the setter. -/
def accessorRef (owner : String) (opcode : UInt8) (f : PackedField) : MemberRef :=
  if opcode = Opcode.getField then ⟨owner, getterName f.name, getterDescriptor f⟩
  else ⟨owner, setterName f.name, setterDescriptor f⟩

/-- An access becomes a call of the accessor of the first field of that name. -/
theorem gives_redirectAccess {q : ConstantPool} {s s' : Instruction.Site} {a b : ConstantPool}
    (h : Gives (redirectAccess owner layout q s) a s' b) :
    a.Extends b ∧ s'.offset = s.offset ∧ s'.opcode = Opcode.invokeSpecial ∧
      ∃ target f, q.memberRef s.operand = .ok target ∧ layout.field? target.name = some f ∧
        b.methodAt? s'.operand = some (accessorRef owner s.opcode f) := by
  obtain ⟨target, c, htarget, h₁⟩ := gives_bind.1 h
  obtain ⟨hmember, rfl⟩ := gives_lift.1 htarget
  cases hf : layout.field? target.name with
  | none =>
    simp only [hf] at h₁
    exact absurd h₁ gives_throw
  | some f =>
    simp only [hf] at h₁
    have hname : f.name = target.name := by
      simpa using List.find?_some hf
    split at h₁
    all_goals
      rename_i hopcode
      obtain ⟨operand, d, hoperand, h₂⟩ := gives_bind.1 h₁
      obtain ⟨rfl, rfl⟩ := gives_pure.1 h₂
      obtain ⟨hext, hmethod⟩ := Interning.gives_methodRef hoperand
      refine ⟨hext, rfl, rfl, target, f, hmember, hf, ?_⟩
      rw [accessorRef, hname]
    · rw [if_pos hopcode]
      exact hmethod
    · rw [if_neg hopcode]
      exact hmethod

/-- Accessor calls were put in place of the field accesses of a unit. -/
structure AccessesRewritten (owner : String) (layout : PackedLayout) (u t : ClassFile) : Prop where
  /-- The pool grows. -/
  pool : u.pool.Extends t.pool
  /-- The instructions that access fields of the layout become calls. -/
  methods : List.Forall₂ (Edit.Rewritten (accessesLayout owner layout u.pool)
    (redirectAccess owner layout u.pool) u.pool t.pool) u.methods t.methods
  /-- Nothing else has changed. -/
  rest : t = { u with pool := t.pool, methods := t.methods }

/-- A unit has gained the method that sets up the class, unless it had one.  The size of the first
buffer is an integer. -/
def InitGained (owner : String) (layout : PackedLayout) (u t : ClassFile) : Prop :=
  ∃ init?, u.findMethod? staticInitName Scan.plainDescriptor = .ok init? ∧
    (init?.isNone → layout.stride * initialSlots < 2 ^ 31) ∧
      u.Gained [] (if init?.isNone then [staticInitDesign owner layout] else []) t

variable {u t : ClassFile}

/-- The first buffer holds a fixed number of slots. -/
theorem initialSize_eq_ok {size : Int32} (h : initialSize layout = .ok size) :
    layout.stride * initialSlots < 2 ^ 31 ∧ size = .ofNat (layout.stride * initialSlots) := by
  obtain ⟨_, -, h⟩ := except_bind_eq_ok.1 h
  by_cases hsize : layout.stride * initialSlots < 2 ^ 31
  · rw [if_pos hsize] at h
    exact ⟨hsize, except_pure_eq_ok.1 h⟩
  · rw [if_neg hsize] at h
    cases h

theorem gives_addStaticInit {r : Unit} (h : Gives (addStaticInit owner layout) u r t) :
    InitGained owner layout u t := by
  obtain ⟨init?, u₁, hask, h₁⟩ := gives_bind.1 h
  obtain ⟨hinit, rfl⟩ := Edit.gives_ask.1 hask
  by_cases hnone : init?.isNone
  · rw [if_pos hnone] at h₁
    obtain ⟨g, q, hgains, -⟩ := Edit.gains_of_gives_grow h₁
    obtain ⟨size, _, _, hsize, -⟩ := gains_bind.1 hgains
    have hsize := (initialSize_eq_ok (gains_lift.1 hsize).1).1
    refine ⟨init?, hinit, fun _ => hsize, ?_⟩
    rw [if_pos hnone]
    refine Edit.gives_grow (adds_lift fun size hsize => ?_) h₁
    obtain ⟨-, rfl⟩ := initialSize_eq_ok hsize
    exact adds_emission (fun _ => emits_staticInitBody)
      (hasRoom_of_spanOf_le spanOf_staticInitDesign)
      fun _ body _ _ _ hbody _ hdepths => adds_addMethod hbody hdepths rfl
  · rw [if_neg hnone] at h₁
    obtain ⟨-, rfl⟩ := gives_pure.1 h₁
    refine ⟨init?, hinit, fun h => absurd h hnone, ?_⟩
    rw [if_neg hnone]
    exact ClassFile.Gained.refl _

/-- A packed unit has a stride that an integer can tell. -/
theorem stride_lt_of_gives {r : Unit} (h : Gives (Edit.grow (addSharedFields layout)) u r t) :
    layout.stride < 2 ^ 31 := by
  obtain ⟨g, q, hgains, -⟩ := Edit.gains_of_gives_grow h
  obtain ⟨_, _, _, -, h₁⟩ := gains_bind.1 hgains
  obtain ⟨_, _, _, -, h₂⟩ := gains_bind.1 h₁
  obtain ⟨stride, _, _, hstride, -⟩ := gains_bind.1 h₂
  exact (strideOf_eq_ok.1 (gains_lift.1 hstride).1).1

/-- The stages of packing a unit. -/
structure Applied (index : TypeIndex) (owner : String) (layout : PackedLayout) (u t : ClassFile) :
    Prop where
  /-- The unit has the name. -/
  name : u.name = .ok owner
  /-- The layout is that of its fields. -/
  view : ∃ view, u.fieldsView = .ok view ∧ layout = .ofFields view
  /-- All nested components are packed types. -/
  nested : firstUnresolved? index layout = none
  /-- The distance between slots is an integer. -/
  stride : layout.stride < 2 ^ 31
  /-- The accesses are rewritten, the instance fields dropped, members gained in three goes, and
  the superclass replaced. -/
  stages : ∃ u₁ u₂ u₃ u₄, AccessesRewritten owner layout u u₁ ∧
    ClassFile.Gained (sharedFields layout) []
      { u₁ with fields := u₁.fields.filter (!·.isInstance) } u₂ ∧
    InitGained owner layout u₂ u₃ ∧
    u₃.Gained (layout.fields.flatMap flyweightFields)
      (capacityDesign owner layout :: accessorDesigns owner layout) u₄ ∧
    (u₄.superName? = .ok (some plainBase) ∧ Edit.Reparented plainBase packedBase u₄ t ∨
      (∃ name?, u₄.superName? = .ok name? ∧ name? ≠ some plainBase) ∧ t = u₄)

/-- **Packing a unit** goes through these stages whenever it succeeds. -/
theorem gives_apply {index : TypeIndex} {layout : PackedLayout}
    (h : Gives (apply index) u layout t) : ∃ owner, Applied index owner layout u t := by
  obtain ⟨owner, v₁, hname, h₁⟩ := gives_bind.1 h
  obtain ⟨hname, rfl⟩ := Edit.gives_ask.1 hname
  obtain ⟨view, v₂, hview, h₂⟩ := gives_bind.1 h₁
  obtain ⟨hview, rfl⟩ := Edit.gives_ask.1 hview
  cases hnested : firstUnresolved? index (.ofFields view) with
  | some nested =>
    simp only [hnested] at h₂
    obtain ⟨_, _, hthrow, -⟩ := gives_bind.1 h₂
    exact absurd hthrow gives_throw
  | none =>
  simp only [hnested] at h₂
  obtain ⟨_, u₁, hrewrite, h₃⟩ := gives_bind.1 h₂
  obtain ⟨_, _, hmodify, h₄⟩ := gives_bind.1 h₃
  obtain rfl := gives_modify.1 hmodify
  obtain ⟨_, u₂, hshared, h₅⟩ := gives_bind.1 h₄
  obtain ⟨_, u₃, hinit, h₆⟩ := gives_bind.1 h₅
  obtain ⟨_, u₄, hmethods, h₇⟩ := gives_bind.1 h₆
  obtain ⟨_, _, hreparent, h₈⟩ := gives_bind.1 h₇
  obtain ⟨rfl, rfl⟩ := gives_pure.1 h₈
  obtain ⟨hpool, hsites, hrest⟩ :=
    Edit.gives_rewriteSites (fun _ _ _ _ h => (gives_redirectAccess h).1) hrewrite
  exact ⟨owner, hname, ⟨view, hview, rfl⟩, hnested, stride_lt_of_gives hshared,
    u₁, u₂, u₃, u₄, ⟨hpool, hsites, hrest⟩, Edit.gives_grow adds_addSharedFields hshared,
    gives_addStaticInit hinit, Edit.gives_grow adds_addMethods hmethods,
    Edit.gives_reparent hreparent⟩

/-! ### The new fields -/

/-- The descriptors of the fields that every packed unit gains denote kinds. -/
theorem parse_of_mem_sharedFields {d : FieldDesign} (hd : d ∈ sharedFields layout) :
    ∃ kind, ValueKind.parse d.descriptor = .ok kind := by
  simp only [sharedFields, List.mem_cons, List.not_mem_nil, or_false] at hd
  rcases hd with rfl | rfl | rfl
  · exact ⟨.int, rfl⟩
  · exact ⟨.object byteBuffer, rfl⟩
  · have hint : ValueKind.parse "I" = .ok .int := rfl
    exact ⟨.int, hint⟩

/-- So do those of the fields for nested components. -/
theorem Applied.parse_of_mem_flyweightFields {index : TypeIndex}
    (h : Applied index owner layout u t) {d : FieldDesign}
    (hd : d ∈ layout.fields.flatMap flyweightFields) :
    ∃ kind, ValueKind.parse d.descriptor = .ok kind := by
  obtain ⟨view, hview, hlayout⟩ := h.view
  obtain ⟨f, hf, hd⟩ := List.mem_flatMap.1 hd
  rw [hlayout] at hf
  -- the kind of a nested component was parsed from a field of the unit
  obtain ⟨-, g, hg, -, -, hkind⟩ := PackedLayout.mem_ofFields hf
  obtain ⟨m, -, hm⟩ := exists_of_mem_right (except_mapM_eq_ok.1 hview) hg
  obtain ⟨name, descriptor, kind, -, -, hparse, rfl⟩ := ClassFile.viewOf_eq_ok.1 hm
  obtain rfl := eq_of_mem_flyweightFields hd
  refine ⟨kind, ?_⟩
  rw [flyweightDesign, hkind]
  exact ValueKind.parse_descriptor_of_parse hparse

/-! ### The new methods -/

theorem getterName_ne_init (name : String) : getterName name ≠ "<init>" := by
  intro heq
  have hlist := congrArg String.toList heq
  simp [getterName, String.toList_append] at hlist

theorem setterName_ne_init (name : String) : setterName name ≠ "<init>" := by
  intro heq
  have hlist := congrArg String.toList heq
  simp [setterName, String.toList_append] at hlist

/-- No new method is a constructor. -/
theorem name_ne_of_mem {inits : List MethodDesign} {d : MethodDesign}
    (hinits : inits ⊆ [staticInitDesign owner layout])
    (hd : d ∈ inits ++ capacityDesign owner layout :: accessorDesigns owner layout) :
    d.name ≠ "<init>" := by
  rcases List.mem_append.1 hd with hd | hd
  · obtain rfl := List.mem_singleton.1 (hinits hd)
    show staticInitName ≠ "<init>"
    decide
  · rcases List.mem_cons.1 hd with rfl | hd
    · show capacityMethod ≠ "<init>"
      decide
    · obtain ⟨f, -, hd⟩ := List.mem_flatMap.1 hd
      simp only [List.mem_cons, List.not_mem_nil, or_false] at hd
      rcases hd with rfl | rfl
      · exact getterName_ne_init f.name
      · exact setterName_ne_init f.name

/-- **The new methods** come last: the one that sets up the class, unless there was one, then the
one that makes room for a slot, and the accessors of all fields. -/
theorem Applied.methods {index : TypeIndex} (h : Applied index owner layout u t) : ∃ inits,
    (inits = [] ∨ inits = [staticInitDesign owner layout] ∧
      layout.stride * initialSlots < 2 ^ 31) ∧
    List.Forall₂ (MethodDesign.Realized u.needsFrames t.pool)
      (inits ++ capacityDesign owner layout :: accessorDesigns owner layout)
      (t.methods.drop u.methods.length) := by
  obtain ⟨u₁, u₂, u₃, u₄, hrewritten, hshared, ⟨init?, -, hsize, hinit⟩, hmethods, hreparent⟩ :=
    h.stages
  have hlength := hrewritten.methods.length_eq
  obtain ⟨_, new₂, -, hnew₂, hu₂⟩ := hshared.members
  obtain ⟨_, new₃, -, hnew₃, hu₃⟩ := hinit.members
  obtain ⟨_, new₄, -, hnew₄, hu₄⟩ := hmethods.members
  have hold₂ : u₂.methods = u₁.methods := by
    cases hnew₂
    rw [hu₂]
    exact List.append_nil _
  have hold₃ : u₃.methods = u₂.methods ++ new₃ := by rw [hu₃]
  have hold₄ : u₄.methods = u₃.methods ++ new₄ := by rw [hu₄]
  have hdrop : u₄.methods.drop u.methods.length = new₃ ++ new₄ := by
    rw [hold₄, hold₃, hold₂, hlength, List.append_assoc, List.drop_left]
  -- the version stays as it is
  have hneeds₁ : u₁.needsFrames = u.needsFrames := by
    rw [hrewritten.rest]
    rfl
  have hneeds₂ : u₂.needsFrames = u.needsFrames :=
    (congrArg ClassFile.needsFrames hu₂).trans hneeds₁
  have hneeds₃ : u₃.needsFrames = u.needsFrames :=
    (congrArg ClassFile.needsFrames hu₃).trans hneeds₂
  -- the second go and the third have to be told in the last pool
  let inits := if init?.isNone then [staticInitDesign owner layout] else []
  have hinits : inits = [] ∨ inits = [staticInitDesign owner layout] ∧
      layout.stride * initialSlots < 2 ^ 31 := by
    by_cases hnone : init?.isNone
    · exact .inr ⟨if_pos hnone, hsize hnone⟩
    · exact .inl (if_neg hnone)
  have hsub : inits ⊆ [staticInitDesign owner layout] := by
    rcases hinits with heq | ⟨heq, -⟩
    · rw [heq]
      exact List.nil_subset _
    · rw [heq]
      exact List.Subset.refl _
  have hnew : List.Forall₂ (MethodDesign.Realized u.needsFrames u₄.pool)
      (inits ++ capacityDesign owner layout :: accessorDesigns owner layout)
      (u₄.methods.drop u.methods.length) := by
    rw [hneeds₂] at hnew₃
    rw [hneeds₃] at hnew₄
    rw [hdrop]
    exact List.rel_append (hnew₃.imp fun _ _ hd => hd.mono hmethods.pool) hnew₄
  refine ⟨inits, hinits, ?_⟩
  rcases hreparent with ⟨-, hmoved⟩ | ⟨-, rfl⟩
  · obtain ⟨p, hp, hq, hms⟩ := hmoved.methods
    exact Edit.realized_of_rewritten hq (fun d hd => name_ne_of_mem hsub hd)
      (hnew.imp fun _ _ hd => hd.mono hp) (List.forall₂_drop _ hms)
  · exact hnew

end Packed

end ClassWeave
