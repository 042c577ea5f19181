import ClassWeave.Proofs.Weaving.Edit
import ClassWeave.Weaving.Pooled

/-!
# What pooling does to a unit

* `Pooled.resetCode`, `resetDesign` : the reset that a pooled unit gains, and its code.
* `Pooled.isTarget_of_resetTargets` : the fields that the reset assigns.
* `Pooled.Applied`, `Pooled.gives_apply` : all that the strategy changes.
* `Pooled.Applied.methods` : the method that it gains.
-/

namespace ClassWeave

namespace Pooled

variable (owner : String) (targets : List (String × String))

/-- The type of the values of a field, by its descriptor. -/
def resetType (descriptor : String) : ValueType :=
  match ValueKind.parse descriptor with
  | .ok kind => kind.type
  | .error _ => .ref

/-- The code that assigns the default value to a field. -/
def resetFieldCode (target : String × String) : List Piece :=
  [.plain (.load .ref 0), .plain (.push (resetType target.2).zero),
    .plain (.putField { owner, name := target.1, descriptor := target.2 })]

/-- The code of the reset. -/
def resetCode : List Piece := targets.flatMap (resetFieldCode owner) ++ [.plain (.ret none)]

/-- The reset of a pooled unit. -/
def resetDesign : MethodDesign :=
  { access := Access.protectedFlag, name := Scan.resetName, descriptor := Scan.plainDescriptor,
    code := resetCode owner targets, maxLocals := 1 }

variable {owner} {targets} {p : ConstantPool} {u t : ClassFile}

open Emission

theorem emits_resetField {name descriptor : String} :
    Emits p (resetField owner name descriptor) (resetFieldCode owner (name, descriptor)) := by
  refine writes_lift fun kind hkind => ?_
  have htype : resetType descriptor = kind.type := by simp only [resetType, hkind]
  refine writes_interning (fun _ _ _ => Interning.gives_fieldRef) fun _ _ _ htarget => ?_
  refine emits_then emits_this fun _ => ?_
  refine emits_then (htype ▸ emits_pushDefault kind) fun _ => ?_
  refine emits_field (fun _ _ => rfl) htarget ?_
  rw [Instr.effect, Descriptor.slots_of_parse hkind]

theorem emits_resetBody : Emits p (resetBody owner targets) (resetCode owner targets) := by
  refine emits_bind ?_ fun _ => emits_returnValue none
  induction targets with
  | nil => exact writes_pure rfl
  | cons target targets ih => exact emits_bind emits_resetField fun _ => ih

/-! ### Targets -/

/-- Whether a reset assigns to a field. -/
def isReset (f : Member) : Bool := f.isInstance && !f.access.has Access.finalFlag

/-- A field has the name and the descriptor of a target. -/
def IsTarget (pool : ConstantPool) (f : Member) (target : String × String) : Prop :=
  f.nameIn pool = .ok target.1 ∧ f.descriptorIn pool = .ok target.2

/-- The targets are the instance fields that are not final, in the order of their declaration. -/
theorem isTarget_of_resetTargets {fields : List Member}
    (h : resetTargets p fields = .ok targets) :
    List.Forall₂ (IsTarget p) (fields.filter isReset) targets := by
  induction fields generalizing targets with
  | nil =>
    cases h
    exact .nil
  | cons f fields ih =>
    unfold resetTargets at h
    by_cases hinstance : f.isInstance
    · rw [if_pos hinstance] at h
      obtain ⟨name, hname, h⟩ := except_bind_eq_ok.1 h
      by_cases hfinal : f.access.has Access.finalFlag
      · rw [if_pos hfinal] at h
        rw [List.filter_cons_of_neg (by simp [isReset, hfinal])]
        exact ih h
      · rw [if_neg hfinal] at h
        obtain ⟨descriptor, hdescriptor, h⟩ := except_bind_eq_ok.1 h
        obtain ⟨later, hrest, h⟩ := except_bind_eq_ok.1 h
        obtain rfl := except_pure_eq_ok.1 h
        rw [List.filter_cons_of_pos (by simp [isReset, hinstance, hfinal])]
        exact .cons ⟨hname, hdescriptor⟩ (ih hrest)
    · rw [if_neg hinstance] at h
      rw [List.filter_cons_of_neg (by simp [isReset, hinstance])]
      exact ih h

/-- What a reset assigns are instance fields, by their descriptors. -/
theorem exists_of_mem_resetTargets {fields : List Member}
    (h : resetTargets p fields = .ok targets) {target : String × String} (ht : target ∈ targets) :
    ∃ m ∈ fields, m.isInstance ∧ m.descriptorIn p = .ok target.2 := by
  obtain ⟨f, hf, htarget⟩ := exists_of_mem_right (isTarget_of_resetTargets h) ht
  obtain ⟨hmem, hreset⟩ := List.mem_filter.1 hf
  exact ⟨f, hmem, (Bool.and_eq_true_iff.1 hreset).1, htarget.2⟩

/-- A reset is written only if every target is of a kind. -/
theorem parse_of_gives_resetBody {b : Body} {result : Unit × Body} {q : ConstantPool}
    (h : Gives ((resetBody owner targets).run b) p result q) :
    ∀ target ∈ targets, ∃ kind, ValueKind.parse target.2 = .ok kind := by
  rw [resetBody, StateT.run_bind] at h
  obtain ⟨result, r, hloop, -⟩ := gives_bind.1 h
  clear h
  induction targets generalizing b p with
  | nil => exact fun _ h => absurd h List.not_mem_nil
  | cons target targets ih =>
    obtain ⟨⟨_, b'⟩, s, hfield, hrest⟩ := gives_bind.1 hloop
    obtain ⟨⟨kind, _⟩, _, hkind, -⟩ := gives_bind.1 hfield
    exact List.forall_mem_cons.2 ⟨⟨kind, (gives_liftM_except.1 hkind).1⟩, ih hrest⟩

/-! ### The whole strategy -/

/-- A unit has gained a reset, unless it had one.  Everything that it assigns is of a kind. -/
def ResetGained (owner : String) (u t : ClassFile) : Prop :=
  ∃ reset?, u.findMethod? Scan.resetName Scan.plainDescriptor = .ok reset? ∧
    (reset? ≠ none ∧ t = u ∨ reset? = none ∧ ∃ targets, resetTargets u.pool u.fields = .ok targets ∧
      (∀ target ∈ targets, ∃ kind, ValueKind.parse target.2 = .ok kind) ∧
      u.Gained [] [resetDesign owner targets] t)

theorem gives_injectReset {r : Unit} (h : Gives (injectReset owner) u r t) :
    ∃ targets, resetTargets u.pool u.fields = .ok targets ∧
      (∀ target ∈ targets, ∃ kind, ValueKind.parse target.2 = .ok kind) ∧
      u.Gained [] [resetDesign owner targets] t := by
  obtain ⟨targets, u₁, hask, h₁⟩ := gives_bind.1 h
  obtain ⟨htargets, rfl⟩ := Edit.gives_ask.1 hask
  refine ⟨targets, htargets, ?_, Edit.gives_grow ?_ h₁⟩
  · obtain ⟨_, _, hgains, -⟩ := Edit.gains_of_gives_grow h₁
    obtain ⟨_, _, _, hbody, -⟩ := Growing.gains_bind.1 hgains
    exact parse_of_gives_resetBody (Growing.gains_interning.1 hbody).1
  have hroom : Body.HasRoom {} (resetCode owner targets) := by
    refine .inl fun piece hpiece => ?_
    rcases List.mem_append.1 hpiece with hfield | hret
    · obtain ⟨target, -, hpiece⟩ := List.mem_flatMap.1 hfield
      simp only [resetFieldCode, List.mem_cons, List.not_mem_nil, or_false] at hpiece
      rcases hpiece with rfl | rfl | rfl <;> rfl
    · obtain rfl := List.mem_singleton.1 hret
      rfl
  exact Growing.adds_emission (fun _ => emits_resetBody) hroom
    fun _ body _ _ _ hbody _ hdepths => Growing.adds_addMethod hbody hdepths rfl

/-- The stages of pooling a unit. -/
structure Applied (owner : String) (u t : ClassFile) : Prop where
  /-- The unit has the name. -/
  name : u.name = .ok owner
  /-- A reset is gained, and the superclass replaced. -/
  stages : ∃ u₁, ResetGained owner u u₁ ∧
    (u₁.superName? = .ok (some plainBase) ∧ Edit.Reparented plainBase pooledBase u₁ t ∨
      (∃ name?, u₁.superName? = .ok name? ∧ name? ≠ some plainBase) ∧ t = u₁)

/-- **Pooling a unit** goes through these stages whenever it succeeds. -/
theorem gives_apply {r : Unit} (h : Gives apply u r t) : ∃ owner, Applied owner u t := by
  obtain ⟨owner, v₁, hname, h₁⟩ := gives_bind.1 h
  obtain ⟨hname, rfl⟩ := Edit.gives_ask.1 hname
  obtain ⟨reset?, v₂, hask, h₂⟩ := gives_bind.1 h₁
  obtain ⟨hreset, rfl⟩ := Edit.gives_ask.1 hask
  cases reset? with
  | none =>
    obtain ⟨_, u₁, hinject, h₃⟩ := gives_bind.1 h₂
    exact ⟨owner, hname, u₁, ⟨none, hreset, .inr ⟨rfl, gives_injectReset hinject⟩⟩,
      Edit.gives_reparent h₃⟩
  | some m =>
    exact ⟨owner, hname, _, ⟨some m, hreset, .inl ⟨by simp, rfl⟩⟩, Edit.gives_reparent h₂⟩

/-- **The new method** comes last: the reset, unless there was one. -/
theorem Applied.methods (h : Applied owner u t) : ∃ designs : List MethodDesign,
    (designs = [] ∨ ∃ targets, designs = [resetDesign owner targets] ∧
      resetTargets u.pool u.fields = .ok targets ∧
      ∀ target ∈ targets, ∃ kind, ValueKind.parse target.2 = .ok kind) ∧
    List.Forall₂ (MethodDesign.Realized u.needsFrames t.pool) designs
      (t.methods.drop u.methods.length) := by
  obtain ⟨v, ⟨reset?, -, hreset⟩, hreparent⟩ := h.stages
  obtain ⟨designs, hdesigns, hnames, hnew⟩ : ∃ designs : List MethodDesign,
      (designs = [] ∨ ∃ targets, designs = [resetDesign owner targets] ∧
        resetTargets u.pool u.fields = .ok targets ∧
        ∀ target ∈ targets, ∃ kind, ValueKind.parse target.2 = .ok kind) ∧
      (∀ d ∈ designs, d.name ≠ "<init>") ∧
      List.Forall₂ (MethodDesign.Realized u.needsFrames v.pool) designs
        (v.methods.drop u.methods.length) := by
    rcases hreset with ⟨-, rfl⟩ | ⟨-, targets, htargets, hkinds, hgained⟩
    · refine ⟨[], .inl rfl, by simp, ?_⟩
      rw [List.drop_length]
      exact .nil
    · refine ⟨_, .inr ⟨targets, rfl, htargets, hkinds⟩, fun d hd => ?_, ?_⟩
      · obtain rfl := List.mem_singleton.1 hd
        exact (by decide : Scan.resetName ≠ "<init>")
      · obtain ⟨_, methods, -, hmethods, heq⟩ := hgained.members
        rw [heq, List.drop_left]
        rw [heq] at hmethods
        exact hmethods
  refine ⟨designs, hdesigns, ?_⟩
  rcases hreparent with ⟨-, hmoved⟩ | ⟨-, rfl⟩
  · obtain ⟨p, hp, hq, hms⟩ := hmoved.methods
    exact Edit.realized_of_rewritten hq hnames (hnew.imp fun _ _ hd => hd.mono hp)
      (List.forall₂_drop _ hms)
  · exact hnew

end Pooled

end ClassWeave
