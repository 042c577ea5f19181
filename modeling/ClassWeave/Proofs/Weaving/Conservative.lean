import ClassWeave.Proofs.Weaving.Conserved
import ClassWeave.Proofs.Weaving.Scan
import ClassWeave.Proofs.Weaving.Transform

/-!
# Weaving is a conservative edit

Branches, exception ranges, frames and all slots that a unit has recorded stay valid because weaving
changes so little.

* `ClassFile.exists_reworked` : a woven unit was reworked by its strategy, and marked.
* `ClassFile.ConservativeEdit` : all that may differ between a unit and the woven one.
* `ClassFile.conservative_of_transform` : weaving is such an edit.
-/

namespace ClassWeave

namespace ClassFile

variable {index : TypeIndex} {settings : Settings} {s : Strategy} {u t : ClassFile} {r : Woven}

theorem exists_superName?_of_checkSuperclass (h : u.checkSuperclass index settings = .ok ()) :
    ∃ name?, u.superName? = .ok name? := by
  obtain ⟨name?, hname, -⟩ := except_bind_eq_ok.1 h
  exact ⟨name?, except_liftM_eq_ok.1 hname⟩

/-- The unit was marked as woven by the strategy: an annotation was added to the given attributes
that records the strategy and the fingerprint. -/
def MarkedWoven (s : Strategy) (attributes : List Attribute) (t : ClassFile) : Prop :=
  ∃ marker fingerprint, Edit.AnnotatedWith marker t.pool attributes t.attributes ∧
    AnnotationInfo.typeDescriptor t.pool marker = .ok wovenMarker ∧
    List.Forall₂ (AnnotationInfo.IsStringElement t.pool)
      [(Scan.strategyElement, s.name), (Scan.fingerprintElement, fingerprint)] marker.elements ∧
    t.fingerprint = .ok fingerprint

/-- **A woven unit** was reworked by its strategy, and marked. -/
theorem exists_reworked (hs : s ≠ .none) (hsuper : u.checkSuperclass index settings = .ok ())
    {layout? : Option PackedLayout} (h : Gives (Edit.weaveBy index s) u layout? t) :
    ∃ base, Reworked base u t ∧ (s = .pooled → t.fields = u.fields) ∧
      MarkedWoven s u.attributes t := by
  have hsuper := exists_superName?_of_checkSuperclass hsuper
  obtain ⟨v, happlied, hmarked⟩ := Edit.gives_weaveBy h
  have hmarked : Gives (Edit.markWoven s) v () t := by
    rcases hmarked with ⟨hnone, -⟩ | ⟨-, hmarked⟩
    · exact absurd hnone hs
    · exact hmarked
  obtain ⟨base, hv, hattributes, hfields⟩ : ∃ base, Reworked base u v ∧
      v.attributes = u.attributes ∧ (s = .pooled → v.fields = u.fields) := by
    cases s with
    | none => exact absurd rfl hs
    | pooled =>
      obtain ⟨-, owner, happlied⟩ := happlied
      obtain ⟨hreworked, hattributes, hfields⟩ := happlied.reworked hsuper
      exact ⟨pooledBase, hreworked, hattributes, fun _ => hfields⟩
    | packed =>
      obtain ⟨owner, layout, -, happlied⟩ := happlied
      obtain ⟨hreworked, hattributes⟩ := happlied.reworked hsuper
      exact ⟨packedBase, hreworked, hattributes, nofun⟩
  obtain ⟨fingerprint, marker, q, hfingerprint, hvq, htype, helements, hqt, hannotated, heq⟩ :=
    Edit.gives_markWoven hmarked
  have hpool := hvq.trans hqt
  have hsame : t.fields = v.fields := by rw [heq]
  refine ⟨base, hv.withAttributes hpool heq, fun hpooled => hsame.trans (hfields hpooled), marker,
    fingerprint, hattributes ▸ hannotated, hqt.utf8 htype, ?_, ?_⟩
  · exact helements.imp fun _ _ he => he.mono hqt
  · exact fingerprint_mono hpool hsame hfingerprint

/-- All that may differ between a unit and the one that a strategy makes of it. -/
structure ConservativeEdit (s : Strategy) (u t : ClassFile) : Prop where
  /-- The slots of the pool stay in front of new ones. -/
  pool : u.pool.slots.toList <+: t.pool.slots.toList
  /-- The minor version stays. -/
  minor : t.minor = u.minor
  /-- The major version stays. -/
  major : t.major = u.major
  /-- The access flags stay. -/
  access : t.access = u.access
  /-- The slot of the class stays. -/
  thisClass : t.thisClass = u.thisClass
  /-- The interfaces stay. -/
  interfaces : t.interfaces = u.interfaces
  /-- The methods stay in front, apart from member instructions in the first body of each, and new
  methods are not public. -/
  methods : ∃ old new, t.methods = old ++ new ∧ List.Forall₂ Member.Retouched u.methods old ∧
    ∀ m ∈ new, m.access.has Access.publicFlag = false
  /-- So the public signatures stay. -/
  signatures : ∀ signatures, u.publicSignatures = .ok signatures →
    t.publicSignatures = .ok signatures
  /-- The static fields stay in front of new ones. -/
  statics : u.fields.filter (!·.isInstance) <+: t.fields.filter (!·.isInstance)
  /-- Pooling leaves all fields. -/
  fields : s = .pooled → t.fields = u.fields
  /-- The attributes of the class stay, but for an annotation in a list of invisible ones. -/
  attributes : ∃ marker, Edit.AnnotatedWith marker t.pool u.attributes t.attributes
  /-- A superclass other than the plain base class stays. -/
  superClass : u.superName? ≠ .ok (some plainBase) → t.superClass = u.superClass
  /-- If it was the plain base class, no constructor calls one of that class any more. -/
  constructors : u.superName? = .ok (some plainBase) →
    ∀ m ∈ t.methods, Edit.CallsNoConstructorOf plainBase t.pool m

/-- **Weaving is a conservative edit**, whatever the unit and the strategy. -/
theorem conservative_of_transform (hs : s ≠ .none) (h : u.transform s index settings = .ok r) :
    ConservativeEdit s u r.unit := by
  obtain ⟨-, hsuper, -, hgives, -⟩ := transform_eq_ok h
  obtain ⟨base, hr, hfields, marker, -, hannotated, -⟩ := exists_reworked hs hsuper hgives
  obtain ⟨cs, hcs⟩ := hr.pool.slots
  obtain ⟨old, new, hmethods, hold, hnew⟩ := hr.methods
  have hhidden : ∀ m ∈ new, m.access.has Access.publicFlag = false := fun m hm => (hnew m hm).access
  refine ⟨⟨_, hcs.symm⟩, hr.minor, hr.major, hr.access, hr.thisClass, hr.interfaces,
    ⟨old, new, hmethods, hold, hhidden⟩, fun signatures => ?_, hr.statics, hfields,
    ⟨marker, hannotated⟩, hr.superClass, fun hplain => (hr.rebased hplain).2⟩
  exact publicSignatures_append hr.pool hmethods (hold.imp fun _ _ hm => hm.sameHead) hhidden

/-- A class is pooled.  In its constructor the call of the base class goes to the new one. -/
theorem conservative_of_transform_pooled :
    let u : ClassFile :=
      { minor := 0, major := 52,
        pool := ⟨#[none, some (.utf8 "A"), some (.classInfo 1),
          some (.utf8 "com/artemis/Component"), some (.classInfo 3), some (.utf8 "<init>"),
          some (.utf8 "()V"), some (.nameAndType 5 6), some (.methodRef 4 7),
          some (.utf8 "Code")]⟩,
        access := 0x21, thisClass := 2, superClass := 4, interfaces := [], fields := [],
        methods := [{ access := 1, name := 5, descriptor := 6, attributes := [.code 9
          ⟨1, 1, [42, 183, 0, 8, 177], [], []⟩] }],
        attributes := [] }
    ∃ r, u.transform .pooled .empty {} = .ok r ∧ ConservativeEdit .pooled u r.unit ∧
      r.unit.superName? = .ok (some pooledBase) ∧
        (r.unit.methods.head?.bind Member.code?).map (·.instructions) =
          some [42, 183, 0, 13, 177] := by
  intro u
  have hresult : (fun r : Woven => (r.unit.superName?,
      (r.unit.methods.head?.bind Member.code?).map (·.instructions))) <$>
        u.transform .pooled .empty {} =
          .ok (.ok (some pooledBase), some [42, 183, 0, 13, 177]) := by
    decide +kernel
  obtain ⟨r, hr, hpair⟩ := except_map_eq_ok.1 hresult
  obtain ⟨hsuper, hcode⟩ := Prod.mk.inj hpair
  exact ⟨r, hr, conservative_of_transform nofun hr, hsuper.symm, hcode.symm⟩

end ClassFile

end ClassWeave
