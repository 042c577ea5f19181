import ClassWeave.Proofs.Packed.Layout
import ClassWeave.Weaving.Transform
import Mathlib.Data.List.Basic
import Mathlib.Data.List.Find

/-!
# What weaving looks up

Weaving a unit asks the index of all units for its superclass and for the types of its instance
fields, and for nothing else.

* `TypeIndex.AgreeOn` : two indexes agree on what is looked up for a unit.
* `ClassFile.checkSuperclass_congr`, `ClassFile.validate_congr`, `Edit.run_weaveBy_congr` : so the
  checks and the edits of the unit come to the same.
* `ClassFile.weave_congr` : and so does weaving as a whole.
-/

namespace ClassWeave

variable {u : ClassFile} {index index' : TypeIndex} {settings : Settings}

/-- Two indexes agree on the superclass of a unit and on the types of its instance fields. -/
structure TypeIndex.AgreeOn (u : ClassFile) (index index' : TypeIndex) : Prop where
  /-- Both know the superclass, or neither does. -/
  superclass : ∀ name, u.superName? = .ok (some name) →
    index.contains name = index'.contains name
  /-- The type of the objects in an instance field is packed in both, or in neither. -/
  fields : ∀ view, u.fieldsView = .ok view → ∀ f ∈ view, f.isStatic = false →
    ∀ type, f.kind = .object type → index.isPacked type = index'.isPacked type

/-! ### Checks -/

theorem ValueKind.isPackable_congr {kind : ValueKind}
    (h : ∀ type, kind = .object type → index.isPacked type = index'.isPacked type)
    (owner : String) : kind.isPackable index owner = kind.isPackable index' owner := by
  cases kind with
  | object type => simp only [isPackable, h type rfl]
  | _ => rfl

namespace ClassFile

theorem checkSuperclass_congr (h : index.AgreeOn u index') (settings : Settings) :
    u.checkSuperclass index settings = u.checkSuperclass index' settings := by
  unfold checkSuperclass
  cases hsuper : u.superName? with
  | error e => rfl
  | ok superName? =>
    cases superName? with
    | none => rfl
    | some name =>
      simp only [bind, Except.bind, liftM, monadLift, MonadLift.monadLift, Except.mapError,
        h.superclass name hsuper]

/-- The first field that cannot be packed is the same. -/
theorem validate_congr (h : index.AgreeOn u index') (s : Strategy) :
    u.validate s index = u.validate s index' := by
  cases s with
  | none | pooled => rfl
  | packed =>
    unfold validate
    cases hview : u.fieldsView with
    | error e => rfl
    | ok view =>
      have hfind (owner : String) :
          (view.find? fun f => !f.isStatic && !f.kind.isPackable index owner) =
            view.find? fun f => !f.isStatic && !f.kind.isPackable index' owner := by
        refine List.find?_congr fun f hf => ?_
        cases hstatic : f.isStatic with
        | true => rfl
        | false => rw [ValueKind.isPackable_congr (h.fields view hview f hf hstatic)]
      simp only [bind, Except.bind, liftM, monadLift, MonadLift.monadLift, Except.mapError, hfind]

end ClassFile

/-! ### Edits -/

/-- The first component of a type that is not packed is the same. -/
theorem Packed.firstUnresolved?_congr (h : index.AgreeOn u index') {view : List Field}
    (hview : u.fieldsView = .ok view) : firstUnresolved? index (.ofFields view) =
      firstUnresolved? index' (.ofFields view) := by
  have hsame : ∀ f ∈ (PackedLayout.ofFields view).fields, ∀ type, f.kind = .object type →
      index.isPacked type = index'.isPacked type := by
    intro f hf type htype
    obtain ⟨-, g, hg, hstatic, -, hkind⟩ := PackedLayout.mem_ofFields hf
    exact h.fields view hview g hg hstatic type (hkind ▸ htype)
  unfold firstUnresolved?
  rw [← List.head?_filterMap, ← List.head?_filterMap]
  refine congrArg _ (List.filterMap_congr fun f hf => ?_)
  cases hkind : f.kind with
  | object type => simp only [hsame f hf type hkind]
  | _ => rfl

namespace Edit

variable {α β : Type}

/-- What comes after a question depends on the answer. -/
theorem run_ask_bind (question : ClassFile → Except Malformation α) (f : α → Edit β)
    (u : ClassFile) : (ask question >>= f).run u = match question u with
      | .ok a => (f a).run u
      | .error cause => (.error (.malformed cause), u) := by
  change ((match question u with
    | .ok a => (pure a : Edit α)
    | .error cause => throw (.malformed cause)) >>= f).run u = _
  cases question u <;> rfl

theorem run_bind_congr {act act' : Edit α} (h : act.run u = act'.run u) (f : α → Edit β) :
    (act >>= f).run u = (act' >>= f).run u := by
  have hrun (act : Edit α) : (act >>= f).run u = match act.run u with
      | (r, t) => ExceptT.bindCont f r t := rfl
  rw [hrun, hrun, h]

theorem run_weaveBy_congr (h : index.AgreeOn u index') (s : Strategy) :
    (weaveBy index s).run u = (weaveBy index' s).run u := by
  refine run_bind_congr ?_ _
  cases s with
  | none | pooled => rfl
  | packed =>
    have hmap (index : TypeIndex) :
      Strategy.apply index .packed = (do return some (← Packed.apply index)) := rfl
    rw [hmap, hmap]
    refine run_bind_congr ?_ _
    unfold Packed.apply
    rw [run_ask_bind, run_ask_bind]
    cases u.name with
    | error cause => rfl
    | ok owner =>
      show (_ >>= _ : Edit PackedLayout).run u = (_ >>= _ : Edit PackedLayout).run u
      rw [run_ask_bind, run_ask_bind]
      cases hview : u.fieldsView with
      | error cause => rfl
      | ok view => 
        simp only [Packed.firstUnresolved?_congr h hview]

end Edit

/-! ### Weaving -/

namespace ClassFile

theorem transform_congr (h : index.AgreeOn u index') (s : Strategy) (settings : Settings) :
    u.transform s index settings = u.transform s index' settings := by
  simp only [transform, checkSuperclass_congr h settings, Edit.run_weaveBy_congr h s]

/-- **Weaving is local.**  Indexes that agree on what is looked up for a unit have it woven
alike. -/
theorem weave_congr (h : index.AgreeOn u index') (settings : Settings) :
    u.weave index settings = u.weave index' settings := by
  simp only [weave, validate_congr h, transform_congr h]

end ClassFile

end ClassWeave
