import ClassWeave.Proofs.ClassFile.Questions
import ClassWeave.Proofs.Weaving.Transform

/-!
# Class files that answer

Reading resolves what later stages ask for, once and for all: a class file that was read answers
every question below, whatever it was read from, and so does what weaving makes of it.

Reading asks for less than there is.  The names of interfaces and the types of annotations are not
looked up, so `ClassFile.interfaceNames` and `ClassFile.findAnnotation?` are not among the
questions.

* `Attribute.Selected` : an attribute, with those inside it, holds what its name selects.
* `ClassFile.Resolvable` : every question is answered, and every attribute holds what its name
  selects.
* `ClassFile.Sound.resolvable` : a sound class file is resolvable.
* `ClassFile.resolvable_of_read` : so are the units that were read, and those that were woven.
-/

namespace ClassWeave

namespace Attribute

variable {pool : ConstantPool} {a : Attribute}

/-- The attribute and all attributes inside it have names that select what they hold. -/
def Selected (pool : ConstantPool) : Attribute → Prop := Everywhere (Named pool)

theorem Everywhere.imp {P Q : Attribute → Prop} (hPQ : ∀ a, P a → Q a) (h : a.Everywhere P) :
    a.Everywhere Q := by
  induction h with
  | raw h => exact .raw (hPQ _ h)
  | annotations h => exact .annotations (hPQ _ h)
  | code h _ ih => exact .code (hPQ _ h) ih

theorem Fits.selectedInside (h : a.Fits pool) : a.Selected pool :=
  Everywhere.imp (fun _ => And.left) h

theorem Sound.selected (h : a.Sound pool) : a.Selected pool := by
  obtain ⟨hnamed, hinside⟩ := h
  cases a with
  | raw => exact .raw hnamed
  | annotations => exact .annotations hnamed
  | code => exact .code hnamed fun b hb => (hinside.2 b hb).selectedInside

end Attribute

namespace ClassFile

variable {versions : VersionRange} {index : TypeIndex} {settings : Settings} {u : ClassFile}

/-! ### What resolved names answer -/

theorem Resolved.fieldTexts (h : u.Resolved) : ∀ f ∈ u.fields, f.HasTexts u.pool := by
  intro f hf
  obtain ⟨hname, descriptor, -, hdescriptor, -⟩ := h.fields f hf
  exact ⟨hname, descriptor, hdescriptor⟩

theorem Resolved.viewable (h : u.Resolved) : Viewable u.pool u.fields := by
  intro f hf
  obtain ⟨⟨name, hname⟩, descriptor, kind, hdescriptor, hkind⟩ := h.fields f hf
  exact ⟨_, viewOf_eq_ok.2 ⟨name, descriptor, kind, hname, hdescriptor, hkind, rfl⟩⟩

/-- The texts of members in a row can be looked up. -/
theorem exists_mapM_texts {pool : ConstantPool} {ms : List Member}
    (h : ∀ m ∈ ms, m.HasTexts pool) : ∃ texts, (ms.mapM fun m => do
      return (← m.nameIn pool, ← m.descriptorIn pool)) = Except.ok texts := by
  refine exists_mapM_eq_ok.2 fun m hm => ?_
  obtain ⟨⟨name, hname⟩, descriptor, hdescriptor⟩ := h m hm
  exact ⟨(name, descriptor), except_bind_eq_ok.2
    ⟨name, hname, except_bind_eq_ok.2 ⟨descriptor, hdescriptor, rfl⟩⟩⟩

theorem Resolved.exists_fingerprint (h : u.Resolved) :
    ∃ fingerprint, u.fingerprint = .ok fingerprint := by
  obtain ⟨texts, htexts⟩ : ∃ texts, u.instanceFields = .ok texts :=
    exists_mapM_texts fun f hf => h.fieldTexts f (List.mem_of_mem_filter hf)
  exact ⟨_, except_bind_eq_ok.2 ⟨texts, htexts, rfl⟩⟩

theorem Resolved.exists_publicSignatures (h : u.Resolved) :
    ∃ signatures, u.publicSignatures = .ok signatures := by
  have hpublic : ∀ m ∈ u.methods.filter (·.access.has Access.publicFlag), m.HasTexts u.pool :=
    fun m hm => h.methods m (List.mem_of_mem_filter hm)
  obtain ⟨texts, htexts⟩ := exists_mapM_texts hpublic
  exact ⟨_, except_bind_eq_ok.2 ⟨texts, htexts, rfl⟩⟩

/-- The names of annotation attributes are looked up, and nothing else. -/
theorem exists_annotationsOf {pool : ConstantPool} {as : List Attribute}
    (h : ∀ a ∈ as, a.Named pool) : ∃ list, annotationsOf pool as = .ok list := by
  induction as with
  | nil => exact ⟨[], rfl⟩
  | cons a as ih =>
    rw [List.forall_mem_cons] at h
    obtain ⟨rest, hrest⟩ := ih h.2
    cases a with
    | raw | code => exact ⟨rest, hrest⟩
    | annotations name own =>
      obtain ⟨text, htext, -⟩ := h.1
      exact ⟨_, except_bind_eq_ok.2
        ⟨text, htext, except_bind_eq_ok.2 ⟨rest, hrest, rfl⟩⟩⟩

/-! ### Class files -/

/-- Everything that reading promises to resolve can be asked for. -/
structure Resolvable (u : ClassFile) : Prop where
  /-- The class has a name. -/
  name : ∃ name, u.name = .ok name
  /-- It is known whether there is a superclass, and which one. -/
  superName : ∃ name?, u.superName? = .ok name?
  /-- The fields have names and kinds. -/
  fieldsView : ∃ fields, u.fieldsView = .ok fields
  /-- The annotations of the class can be listed. -/
  annotations : ∃ list, u.annotations = .ok list
  /-- So can the public methods. -/
  publicSignatures : ∃ signatures, u.publicSignatures = .ok signatures
  /-- The fields have a fingerprint. -/
  fingerprint : ∃ fingerprint, u.fingerprint = .ok fingerprint
  /-- Every search for a method ends, with a method or without. -/
  findMethod : ∀ name descriptor, ∃ m?, u.findMethod? name descriptor = .ok m?
  /-- The attributes of the class hold what their names select. -/
  ownAttributes : ∀ a ∈ u.attributes, a.Selected u.pool
  /-- So do those of the fields. -/
  fieldAttributes : ∀ f ∈ u.fields, ∀ a ∈ f.attributes, a.Selected u.pool
  /-- So do those of the methods, and those of their bodies. -/
  methodAttributes : ∀ m ∈ u.methods, ∀ a ∈ m.attributes, a.Selected u.pool

/-- A sound class file is resolvable: the names are resolved, and the attributes are sound. -/
theorem Sound.resolvable (h : u.Sound versions) : u.Resolvable where
  name := h.names.thisClass
  superName := superName?_eq_ok.2 h.names.superClass
  fieldsView := exists_fieldsView_iff.2 h.names.viewable
  annotations := exists_annotationsOf fun a ha => (h.attributes a ha).1
  publicSignatures := h.names.exists_publicSignatures
  fingerprint := h.names.exists_fingerprint
  findMethod name descriptor := exists_firstMethod?_of_hasTexts name descriptor h.names.methods
  ownAttributes a ha := (h.attributes a ha).selected
  fieldAttributes f hf a ha := (h.fields f hf a ha).selectedInside
  methodAttributes m hm a ha := (h.methods m hm a ha).selected

/-- **Units stay resolvable.**  A unit that was read is resolvable, and so is what weaving makes of
it, under every index and all settings. -/
theorem resolvable_of_read {b : Bytes} (h : read versions b = .ok u) :
    u.Resolvable ∧ ∀ index settings r, u.weave index settings = .ok (some r) →
      r.unit.Resolvable :=
  ⟨(Sound.of_read h).resolvable, fun _ _ _ hweave => (sound_weave h hweave).resolvable⟩

/-- A component with a constant, and with line numbers inside of its constructor, is pooled and so
moved to another superclass. -/
theorem resolvable_of_read_pooled :
    let u : ClassFile :=
      { minor := 0, major := 52,
        pool := ⟨#[none, some (.utf8 "A"), some (.classInfo 1),
          some (.utf8 "com/artemis/Component"), some (.classInfo 3), some (.utf8 "<init>"),
          some (.utf8 "()V"), some (.nameAndType 5 6), some (.methodRef 4 7), some (.utf8 "Code"),
          some (.utf8 "RuntimeInvisibleAnnotations"),
          some (.utf8 "Lcom/artemis/annotations/PooledWeaver;"), some (.utf8 "n"),
          some (.utf8 "I"), some (.utf8 "ConstantValue"), some (.integer 7),
          some (.utf8 "LineNumberTable")]⟩,
        access := 0x21, thisClass := 2, superClass := 4, interfaces := [],
        fields := [{ access := 0x18, name := 12, descriptor := 13,
                     attributes := [.raw 14 [0, 15]] }],
        methods := [{ access := 1, name := 5, descriptor := 6, attributes := [.code 9
          ⟨1, 1, [42, 183, 0, 8, 177], [], [.raw 16 [0, 1, 0, 0, 0, 3]]⟩] }],
        attributes := [.annotations 10 [{ type := 11, elements := [] }]] }
    ∃ b r, read {} b = .ok u ∧ u.weave .empty {} = .ok (some r) ∧
      r.unit.superName? = .ok (some pooledBase) ∧ u.Resolvable ∧ r.unit.Resolvable := by
  intro u
  obtain ⟨b, hread⟩ : ∃ b, read {} b = .ok u := exists_read (by decide +kernel)
  obtain ⟨r, hweave, hsuper⟩ : ∃ r, u.weave .empty {} = .ok (some r) ∧
      r.unit.superName? = .ok (some pooledBase) := by
    have hsuper : Option.map (fun r : Woven => r.unit.superName?) <$> u.weave .empty {} =
        .ok (some (.ok (some pooledBase))) := by decide +kernel
    exact except_map_some_eq_ok.1 hsuper
  obtain ⟨hresolvable, hwoven⟩ := resolvable_of_read hread
  exact ⟨b, r, hread, hweave, hsuper, hresolvable, hwoven .empty {} r hweave⟩

end ClassFile

end ClassWeave
