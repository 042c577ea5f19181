import ClassWeave.Proofs.ClassFile.Questions
import ClassWeave.Proofs.Machine.Step
import ClassWeave.Proofs.Pooled.Verified

/-!
# The reset of pooled units resets

The reset that a pooled unit gains is run on a small machine, on any object.

* `Pooled.Zeroed` : some fields of an object hold zero, and nothing else has changed.
* `Pooled.exists_codeDrains` : what the code of a reset does, by induction on what it assigns.
* `Pooled.Cleared` : the same for the fields that a unit declares.
* `Pooled.resets_of_apply` : a pooled unit has the reset that it declares, or one that resets.
-/

namespace ClassWeave

namespace Pooled

variable {P : Program} {owner : String} {targets : List (String × String)} {o : Nat} {h h' : Heap}

/-! ### Running the code -/

/-- The fields of an object that are targets hold the zero of their type.  All other fields of all
objects, and all else, are as they were. -/
structure Zeroed (owner : String) (targets : List (String × String)) (o : Nat) (h h' : Heap) :
    Prop where
  /-- The fields. -/
  fields : ∀ o' m, h'.field? o' m =
    if o' = o ∧ m.owner = owner ∧ (m.name, m.descriptor) ∈ targets then
      some (resetType m.descriptor).zero
    else h.field? o' m
  /-- The static fields of all classes. -/
  statics : h'.statics = h.statics
  /-- The classes of objects. -/
  classes : ∀ o', h'.class? o' = h.class? o'
  /-- The buffers. -/
  buffers : ∀ o', h'.buffer? o' = h.buffer? o'

theorem Zeroed.nil : Zeroed owner [] o h h :=
  ⟨fun _ _ => (if_neg fun hmem => absurd hmem.2.2 List.not_mem_nil).symm, rfl, fun _ => rfl,
    fun _ => rfl⟩

/-- One field is assigned, and then the others.  It does not matter if it is among them. -/
theorem Zeroed.cons {target : String × String} {h₁ : Heap} (hstatics : h₁.statics = h.statics)
    (hfields : ∀ o' m, h₁.field? o' m = if o' = o ∧ m = ⟨owner, target.1, target.2⟩ then
      some (resetType target.2).zero else h.field? o' m)
    (hclasses : ∀ o', h₁.class? o' = h.class? o') (hbuffers : ∀ o', h₁.buffer? o' = h.buffer? o')
    (hrest : Zeroed owner targets o h₁ h') : Zeroed owner (target :: targets) o h h' := by
  refine ⟨fun o' m => ?_, hrest.statics.trans hstatics,
    fun o' => (hrest.classes o').trans (hclasses o'),
    fun o' => (hrest.buffers o').trans (hbuffers o')⟩
  rw [hrest.fields, hfields]
  obtain ⟨owner', name, descriptor⟩ := m
  obtain ⟨name₀, descriptor₀⟩ := target
  simp only [MemberRef.mk.injEq, List.mem_cons, Prod.mk.injEq]
  by_cases hlater : o' = o ∧ owner' = owner ∧ (name, descriptor) ∈ targets
  · rw [if_pos hlater, if_pos ⟨hlater.1, hlater.2.1, .inr hlater.2.2⟩]
  · rw [if_neg hlater]
    by_cases hfirst : o' = o ∧ owner' = owner ∧ name = name₀ ∧ descriptor = descriptor₀
    · rw [if_pos hfirst, if_pos ⟨hfirst.1, hfirst.2.1, .inl hfirst.2.2⟩, hfirst.2.2.2]
    · rw [if_neg hfirst, if_neg]
      rintro ⟨ho, howner, hname | hmem⟩
      · exact hfirst ⟨ho, howner, hname⟩
      · exact hlater ⟨ho, howner, hmem⟩

/-- Assigning to one field takes the machine through its three instructions. -/
theorem codeDrains_resetFieldCode {target : String × String} {code : List Piece} {h₁ : Heap}
    {locals : Nat → Option Value} (hthis : locals 0 = some (.ref (some o)))
    (hwrite : h.setField? o ⟨owner, target.1, target.2⟩ (resetType target.2).zero = some h₁)
    (hrest : P.CodeDrains code ⟨[], locals, h₁⟩ h') :
    P.CodeDrains (resetFieldCode owner target ++ code) ⟨[], locals, h⟩ h' := by
  have hload : Instr.run? P.construct (.load .ref 0) ⟨[], locals, h⟩ =
      some ⟨[.ref (some o)], locals, h⟩ := by
    simp [Instr.run?, hthis, Value.type]
  have hput : Instr.run? P.construct (.putField ⟨owner, target.1, target.2⟩)
      ⟨[(resetType target.2).zero, .ref (some o)], locals, h⟩ = some ⟨[], locals, h₁⟩ := by
    simp [Instr.run?, hwrite]
  exact .plain rfl hload (.plain rfl rfl (.plain rfl hput hrest))

/-- **The code of a reset** assigns to its targets one after the other, and returns with nothing on
the operand stack.  Between two fields the operand stack is empty and the object is still in its
local variable. -/
theorem exists_codeDrains {className : String} {locals : Nat → Option Value}
    (hthis : locals 0 = some (.ref (some o))) (hclass : h.class? o = some className) :
    ∃ h', P.CodeDrains (resetCode owner targets) ⟨[], locals, h⟩ h' ∧
      Zeroed owner targets o h h' := by
  induction targets generalizing h with
  | nil => exact ⟨h, .ret, .nil⟩
  | cons target targets ih =>
    obtain ⟨v, hv⟩ := Heap.exists_field? hclass ⟨owner, target.1, target.2⟩
    obtain ⟨h₁, hwrite, hstatics, hfields, hclasses, hbuffers⟩ :=
      Heap.exists_setField? hv (resetType target.2).zero
    obtain ⟨h', hdrains, hzeroed⟩ := ih ((hclasses o).trans hclass)
    refine ⟨h', ?_, .cons hstatics hfields hclasses hbuffers hzeroed⟩
    rw [resetCode, List.flatMap_cons, List.append_assoc]
    exact codeDrains_resetFieldCode hthis hwrite hdrains

/-! ### The fields of a unit -/

variable {u t : ClassFile}

/-- Every instance field of a unit that is not final holds the zero of its kind in an object.  All
other fields of all objects, and all else, are as they were. -/
structure Cleared (u : ClassFile) (owner : String) (o : Nat) (h h' : Heap) : Prop where
  /-- The fields that hold zero. -/
  zero : ∀ f ∈ u.fields, f.isInstance → ¬ f.access.has Access.finalFlag →
    ∃ name descriptor kind, f.nameIn u.pool = .ok name ∧ f.descriptorIn u.pool = .ok descriptor ∧
      ValueKind.parse descriptor = .ok kind ∧
      h'.field? o ⟨owner, name, descriptor⟩ = some kind.type.zero
  /-- The other fields. -/
  others : ∀ o' m, (o' = o → m.owner = owner → ∀ f ∈ u.fields, f.isInstance →
      f.nameIn u.pool = .ok m.name → f.descriptorIn u.pool = .ok m.descriptor →
      f.access.has Access.finalFlag) → h'.field? o' m = h.field? o' m
  /-- The static fields of all classes. -/
  statics : h'.statics = h.statics
  /-- The classes of objects. -/
  classes : ∀ o', h'.class? o' = h.class? o'
  /-- The buffers. -/
  buffers : ∀ o', h'.buffer? o' = h.buffer? o'

/-- A field that holds zero, by its texts. -/
theorem Cleared.field?_eq_zero (hcleared : Cleared u owner o h h') {f : Member} (hf : f ∈ u.fields)
    (hinstance : f.isInstance) (hfinal : ¬ f.access.has Access.finalFlag) {name descriptor : String}
    {kind : ValueKind} (hname : f.nameIn u.pool = .ok name)
    (hdescriptor : f.descriptorIn u.pool = .ok descriptor)
    (hkind : ValueKind.parse descriptor = .ok kind) :
    h'.field? o ⟨owner, name, descriptor⟩ = some kind.type.zero := by
  obtain ⟨_, _, _, hname', hdescriptor', hkind', hfield⟩ := hcleared.zero f hf hinstance hfinal
  obtain rfl := Except.ok.inj (hname.symm.trans hname')
  obtain rfl := Except.ok.inj (hdescriptor.symm.trans hdescriptor')
  obtain rfl := Except.ok.inj (hkind.symm.trans hkind')
  exact hfield

theorem cleared_of_zeroed (htargets : resetTargets u.pool u.fields = .ok targets)
    (hkinds : ∀ target ∈ targets, ∃ kind, ValueKind.parse target.2 = .ok kind)
    (hzeroed : Zeroed owner targets o h h') : Cleared u owner o h h' := by
  have hfields := isTarget_of_resetTargets htargets
  refine ⟨fun f hf hinstance hfinal => ?_, fun o' m hother => ?_, hzeroed.statics,
    hzeroed.classes, hzeroed.buffers⟩
  · have hreset : isReset f := by simp [isReset, hinstance, hfinal]
    obtain ⟨target, htarget, hname, hdescriptor⟩ :=
      exists_of_mem_left hfields (List.mem_filter.2 ⟨hf, hreset⟩)
    obtain ⟨kind, hkind⟩ := hkinds target htarget
    refine ⟨target.1, target.2, kind, hname, hdescriptor, hkind, ?_⟩
    rw [hzeroed.fields, if_pos ⟨rfl, rfl, htarget⟩, resetType_of_parse hkind]
  · rw [hzeroed.fields, if_neg]
    rintro ⟨ho, howner, htarget⟩
    obtain ⟨f, hf, hname, hdescriptor⟩ := exists_of_mem_right hfields htarget
    obtain ⟨hmem, hreset⟩ := List.mem_filter.1 hf
    obtain ⟨hinstance, hfinal⟩ := Bool.and_eq_true_iff.1 hreset
    have hfinal' := hother ho howner f hmem hinstance hname hdescriptor
    simp [hfinal'] at hfinal

/-! ### The whole strategy -/

/-- A method is a reset by its texts. -/
def IsResetMethod (pool : ConstantPool) (m : Member) : Prop :=
  m.nameIn pool = .ok Scan.resetName ∧ m.descriptorIn pool = .ok Scan.plainDescriptor

/-- The body of a method, run on any object, clears it and leaves nothing on the operand stack. -/
def Clears (pool : ConstantPool) (u : ClassFile) (owner : String) (m : Member) : Prop :=
  ∃ body, m.code? = some body ∧ ∀ (P : Program) (h : Heap) (o : Nat) (className : String),
    P.pool = pool → h.class? o = some className →
      ∃ h', P.Drains body [.ref (some o)] h h' ∧ Cleared u owner o h h'

/-- A unit with a reset of its own keeps all methods in their places, and its resets as they
are. -/
theorem Applied.kept (happlied : Applied owner u t)
    (hdeclared : ∃ m ∈ u.methods, IsResetMethod u.pool m) :
    t.methods.length = u.methods.length ∧
      ∀ (k : Nat) (m : Member), u.methods[k]? = some m → IsResetMethod u.pool m →
        t.methods[k]? = some m := by
  obtain ⟨v, ⟨reset?, hreset?, hreset⟩, hmoved⟩ := happlied.stages
  rcases hreset with ⟨-, rfl⟩ | ⟨rfl, -⟩
  · exact ⟨Edit.length_methods_of_moved hmoved, fun k m hm hnamed =>
      Edit.getElem?_of_moved hmoved hm hnamed.1 (by decide)⟩
  · obtain ⟨m, hm, hnamed⟩ := hdeclared
    exact absurd hnamed (ClassFile.firstMethod?_eq_none hreset? m hm)

/-- A unit without a reset gains one, behind its methods. -/
theorem Applied.gained (happlied : Applied owner u t)
    (hnone : ∀ m ∈ u.methods, ¬ IsResetMethod u.pool m) : ∃ targets reset,
      resetTargets u.pool u.fields = .ok targets ∧
      (∀ target ∈ targets, ∃ kind, ValueKind.parse target.2 = .ok kind) ∧
      t.methods.drop u.methods.length = [reset] ∧
      (resetDesign owner targets).Realized u.needsFrames t.pool reset := by
  obtain ⟨v, ⟨reset?, hreset?, hreset⟩, hmoved⟩ := happlied.stages
  rcases hreset with ⟨hsome, -⟩ | ⟨rfl, targets, htargets, hkinds, hgained⟩
  · obtain ⟨m, rfl⟩ := Option.ne_none_iff_exists'.1 hsome
    obtain ⟨hm, hnamed⟩ := ClassFile.firstMethod?_eq_some hreset?
    exact absurd hnamed (hnone m hm)
  obtain ⟨_, methods, -, hmethods, hv⟩ := hgained.members
  obtain ⟨reset, rest, hrealized, hrest, rfl⟩ := List.forall₂_cons_left_iff.1 hmethods
  obtain rfl := List.forall₂_nil_left_iff.1 hrest
  have hvmethods : v.methods = u.methods ++ [reset] := by rw [hv]
  -- moving to the pooled base class leaves the reset where it is
  have hlast : v.methods[u.methods.length]? = some reset := by simp [hvmethods]
  have hne : Scan.resetName ≠ "<init>" := by decide
  have hlast' := Edit.getElem?_of_moved hmoved hlast hrealized.name hne
  have hlength : t.methods.length = u.methods.length + 1 := by
    rw [Edit.length_methods_of_moved hmoved, hvmethods, List.length_append, List.length_singleton]
  obtain ⟨hk, hget⟩ := List.getElem?_eq_some_iff.1 hlast'
  refine ⟨targets, reset, htargets, hkinds, ?_, hrealized.mono (Edit.extends_of_moved hmoved)⟩
  rw [List.drop_eq_getElem_cons hk, hget, List.drop_of_length_le (Nat.le_of_eq hlength)]

/-- **The reset that a unit gains clears its objects.** -/
theorem clears_of_realized {pool : ConstantPool} {framed : Bool} {reset : Member}
    (htargets : resetTargets u.pool u.fields = .ok targets)
    (hkinds : ∀ target ∈ targets, ∃ kind, ValueKind.parse target.2 = .ok kind)
    (hreset : (resetDesign owner targets).Realized framed pool reset) :
    Clears pool u owner reset := by
  obtain ⟨name, body, hattributes, -, hbody⟩ := hreset.body
  refine ⟨body, by rw [Member.code?, hattributes]; rfl, fun P h o className hpool hclass => ?_⟩
  obtain ⟨h', hdrains, hzeroed⟩ : ∃ h', P.CodeDrains (resetCode owner targets)
      ⟨[], localsOf [.ref (some o)], h⟩ h' ∧ Zeroed owner targets o h h' :=
    exists_codeDrains rfl hclass
  exact ⟨h', hdrains.drains (hpool ▸ hbody.encodes),
    cleared_of_zeroed htargets hkinds hzeroed⟩

/-- **Pooled units reset their objects.**  A unit that declares a reset keeps it as it is and gains
no method.  Another unit gains one method, a protected reset, and its body clears every object: all
instance fields of the unit that are not final hold zero afterwards, and nothing else changes. -/
theorem resets_of_apply {r : Unit} (happly : Gives apply u r t) :
    u.pool.Extends t.pool ∧
    ((∃ m ∈ u.methods, IsResetMethod u.pool m) → t.methods.length = u.methods.length ∧
      ∀ (k : Nat) (m : Member), u.methods[k]? = some m → IsResetMethod u.pool m →
        t.methods[k]? = some m) ∧
    ((∀ m ∈ u.methods, ¬ IsResetMethod u.pool m) → ∃ owner reset, u.name = .ok owner ∧
      t.methods.drop u.methods.length = [reset] ∧ reset.access = Access.protectedFlag ∧
      IsResetMethod t.pool reset ∧ Clears t.pool u owner reset) := by
  obtain ⟨owner, happlied⟩ := gives_apply happly
  refine ⟨?_, happlied.kept, fun hnone => ?_⟩
  · obtain ⟨v, ⟨_, -, hreset⟩, hmoved⟩ := happlied.stages
    have hmoved := Edit.extends_of_moved hmoved
    rcases hreset with ⟨-, rfl⟩ | ⟨-, _, -, -, hgained⟩
    · exact hmoved
    · exact hgained.pool.trans hmoved
  · obtain ⟨targets, reset, htargets, hkinds, hnew, hrealized⟩ := happlied.gained hnone
    exact ⟨owner, reset, happlied.name, hnew, hrealized.access,
      ⟨hrealized.name, hrealized.descriptor⟩, clears_of_realized htargets hkinds hrealized⟩

/-- A class with a wide field, a text, a final and a static field is pooled.  Its reset is run on an
object whose fields all hold something. -/
theorem resets_of_apply_mixed :
    let u : ClassFile :=
      { minor := 0, major := 52,
        pool := ⟨#[none, some (.utf8 "A"), some (.classInfo 1), some (.utf8 "java/lang/Object"),
          some (.classInfo 3), some (.utf8 "x"), some (.utf8 "D"), some (.utf8 "name"),
          some (.utf8 "Ljava/lang/String;"), some (.utf8 "id"), some (.utf8 "I"),
          some (.utf8 "count")]⟩,
        access := 0x21, thisClass := 2, superClass := 4, interfaces := [],
        fields := [{ access := 0, name := 5, descriptor := 6, attributes := [] },
          { access := Access.finalFlag, name := 9, descriptor := 10, attributes := [] },
          { access := 0, name := 7, descriptor := 8, attributes := [] },
          { access := Access.staticFlag, name := 11, descriptor := 10, attributes := [] }],
        methods := [], attributes := [] }
    let h : Heap := { objects := [.ofClass "A" fun _ => .int 7], statics := fun _ => .int 7 }
    ∃ t reset body h', Gives apply u () t ∧ t.methods = [reset] ∧ reset.code? = some body ∧
      Program.Drains { owner := "A", pool := t.pool, methods := [], construct := fun _ _ h => h }
        body [.ref (some 0)] h h' ∧
      h'.field? 0 ⟨"A", "x", "D"⟩ = some (.double 0) ∧
      h'.field? 0 ⟨"A", "name", "Ljava/lang/String;"⟩ = some .null ∧
      h'.field? 0 ⟨"A", "id", "I"⟩ = some (.int 7) ∧
      h'.field? 0 ⟨"A", "count", "I"⟩ = some (.int 7) ∧ h'.statics = h.statics := by
  intro u h
  have hresult : (Id.run (apply.run u)).1 = .ok () := by decide +kernel
  obtain ⟨t, happly⟩ : ∃ t, Gives apply u () t := ⟨_, Prod.ext hresult rfl⟩
  obtain ⟨-, -, hgains⟩ := resets_of_apply happly
  obtain ⟨owner, reset, hname, hmethods, -, -, body, hbody, hclears⟩ :=
    hgains fun _ hm => absurd hm List.not_mem_nil
  have hname' : u.name = .ok "A" := by decide +kernel
  obtain rfl := Except.ok.inj (hname.symm.trans hname')
  obtain ⟨h', hdrains, hcleared⟩ := hclears
    { owner := "A", pool := t.pool, methods := [], construct := fun _ _ h => h } h 0 "A" rfl rfl
  refine ⟨t, reset, body, h', happly, hmethods, hbody, hdrains, ?_, ?_, ?_, ?_, hcleared.statics⟩
  · have hparse : ValueKind.parse "D" = .ok .double := by decide +kernel
    exact hcleared.field?_eq_zero (List.getElem_mem (by decide : 0 < 4)) (by decide) (by decide)
      (by decide +kernel) (by decide +kernel) hparse
  · have hparse : ValueKind.parse "Ljava/lang/String;" = .ok (.object "java/lang/String") := by
      decide +kernel
    exact hcleared.field?_eq_zero (List.getElem_mem (by decide : 2 < 4)) (by decide) (by decide)
      (by decide +kernel) (by decide +kernel) hparse
  · refine hcleared.others 0 _ fun _ _ => ?_
    decide +kernel
  · refine hcleared.others 0 _ fun _ _ => ?_
    decide +kernel

end Pooled

end ClassWeave
