import ClassWeave.Proofs.ClassFile.Questions
import ClassWeave.Proofs.Packed.Layout
import ClassWeave.Weaving.Scan
import ClassWeave.Weaving.Validation

/-!
# What scanning and validation look at

* `ClassFile.scan_eq_ok` : the questions that scanning asks of a unit.
* `ClassFile.fingerprint_mono` : fingerprints depend on the instance fields alone.
* `ClassFile.declaredStrategy_of_findAnnotation?` : declarations depend on the markers alone.
* `Packed.isPackable_of_validate` : what the fields of a unit that can be packed are.
-/

namespace ClassWeave

namespace ClassFile

variable {u t : ClassFile}

/-- Scanning succeeds just when all of its questions have answers, and what the woven marker
records, if there is one, is still so. -/
theorem scan_eq_ok {scan : Scan} : u.scan = .ok scan ↔
    ∃ name declared woven? fields superName? constructor? reset?,
      u.name = .ok name ∧ u.declaredStrategy = .ok declared ∧ u.wovenRecord? = .ok woven? ∧
      (∀ record, woven? = some record → u.checkRecord name declared record = .ok ()) ∧
      u.fieldsView = .ok fields ∧ u.superName? = .ok superName? ∧
      u.findMethod? Scan.constructorName Scan.plainDescriptor = .ok constructor? ∧
      u.findMethod? Scan.resetName Scan.plainDescriptor = .ok reset? ∧
      scan = { name, superName?, declared, woven?
               effective := if woven?.isSome then .none else declared
               fields := fields.filter (!·.isStatic)
               hasDefaultConstructor := constructor?.isSome
               hasReset := reset?.isSome } := by
  simp only [ClassFile.scan, except_bind_eq_ok, except_liftM_eq_ok]
  constructor
  · rintro ⟨name, hname, declared, hdeclared, woven?, hwoven, h⟩
    cases woven? with
    | none =>
      simp only [except_bind_eq_ok, except_liftM_eq_ok, except_pure_eq_ok] at h
      obtain ⟨fields, hfields, super?, hsuper, constructor?, hconstructor, reset?, hreset, rfl⟩ := h
      exact ⟨name, declared, none, fields, super?, constructor?, reset?, hname, hdeclared, hwoven,
        nofun, hfields, hsuper, hconstructor, hreset, rfl⟩
    | some record =>
      simp only [except_bind_eq_ok, except_liftM_eq_ok, except_pure_eq_ok] at h
      obtain ⟨_, hrecord, fields, hfields, super?, hsuper, constructor?, hconstructor, reset?,
        hreset, rfl⟩ := h
      exact ⟨name, declared, some record, fields, super?, constructor?, reset?, hname, hdeclared,
        hwoven, fun _ heq => Option.some.inj heq ▸ hrecord, hfields, hsuper, hconstructor, hreset,
        rfl⟩
  · rintro ⟨name, declared, woven?, fields, super?, constructor?, reset?, hname, hdeclared, hwoven,
      hrecord, hfields, hsuper, hconstructor, hreset, rfl⟩
    refine ⟨name, hname, declared, hdeclared, woven?, hwoven, ?_⟩
    cases woven? with
    | none =>
      simp only [except_bind_eq_ok, except_liftM_eq_ok, except_pure_eq_ok]
      exact ⟨fields, hfields, super?, hsuper, constructor?, hconstructor, reset?, hreset, rfl⟩
    | some record =>
      simp only [except_bind_eq_ok, except_liftM_eq_ok, except_pure_eq_ok]
      exact ⟨(), hrecord record rfl, fields, hfields, super?, hsuper, constructor?, hconstructor,
        reset?, hreset, rfl⟩

/-! ### Fingerprints -/

theorem fingerprint_mono (hpool : u.pool.Extends t.pool) (hfields : t.fields = u.fields)
    {fingerprint : String} (h : u.fingerprint = .ok fingerprint) :
    t.fingerprint = .ok fingerprint := by
  obtain ⟨texts, htexts, h⟩ := except_bind_eq_ok.1 h
  refine except_bind_eq_ok.2 ⟨texts, ?_, h⟩
  unfold instanceFields at htexts ⊢
  rw [hfields]
  refine except_mapM_of_forall₂ (List.forall₂_same.2 fun f _ pair hpair => ?_) htexts
  simp only [except_bind_eq_ok] at hpair ⊢
  obtain ⟨name, hname, descriptor, hdescriptor, hpair⟩ := hpair
  exact ⟨name, hpool.utf8 hname, descriptor, hpool.utf8 hdescriptor, hpair⟩

/-! ### Markers -/

/-- Units in which the same markers are found declare the same. -/
theorem declaredStrategy_of_findAnnotation? (h : ∀ s descriptor r, Strategy.marker? s =
      some descriptor → u.findAnnotation? descriptor = .ok r → t.findAnnotation? descriptor = .ok r)
    {declared : Strategy} (hu : u.declaredStrategy = .ok declared) :
    t.declaredStrategy = .ok declared := by
  have hmarker (s : Strategy) (answer : Bool) (hs : u.hasMarker s = .ok answer) :
      t.hasMarker s = .ok answer := by
    unfold hasMarker at hs ⊢
    cases hmarker : s.marker? with
    | none =>
      rw [hmarker] at hs
      exact hs
    | some descriptor =>
      simp only [hmarker, except_bind_eq_ok] at hs ⊢
      obtain ⟨r, hr, hs⟩ := hs
      exact ⟨r, h s descriptor r hmarker hr, hs⟩
  simp only [declaredStrategy, except_bind_eq_ok, except_liftM_eq_ok] at hu ⊢
  obtain ⟨pooled, hpooled, packed, hpacked, hu⟩ := hu
  exact ⟨pooled, hmarker _ _ hpooled, packed, hmarker _ _ hpacked, hu⟩

/-- Nothing is recorded just when there is no woven marker. -/
theorem wovenRecord?_eq_none :
    u.wovenRecord? = .ok none ↔ u.findAnnotation? wovenMarker = .ok none := by
  unfold wovenRecord?
  rw [except_bind_eq_ok]
  constructor
  · rintro ⟨a?, ha, h⟩
    cases a? with
    | none => exact ha
    | some a =>
      -- a marker is always recorded, whatever it names
      obtain ⟨text?, -, h⟩ := except_bind_eq_ok.1 h
      cases text? <;> simp [except_bind_eq_ok, except_map_eq_ok] at h
  · intro h
    exact ⟨none, h, rfl⟩

theorem ofName?_name (s : Strategy) : Strategy.ofName? s.name = some s := by
  cases s <;> decide

/-- What is recorded when the woven marker names a strategy and a fingerprint. -/
theorem wovenRecord?_of_findAnnotation? {a : AnnotationInfo} {s : Strategy} {fingerprint : String}
    (ha : u.findAnnotation? wovenMarker = .ok (some a))
    (hs : AnnotationInfo.stringElement? u.pool Scan.strategyElement a = .ok (some s.name))
    (hf : AnnotationInfo.stringElement? u.pool Scan.fingerprintElement a = .ok (some fingerprint)) :
    u.wovenRecord? = .ok (some { strategy? := some s, fingerprint? := some fingerprint }) := by
  have hrecorded : recordedStrategy s.name = .ok s := by
    unfold recordedStrategy
    rw [ofName?_name]
  refine except_bind_eq_ok.2 ⟨_, ha, except_bind_eq_ok.2 ⟨_, hs, ?_⟩⟩
  refine except_bind_eq_ok.2 ⟨some s, except_map_eq_ok.2 ⟨s, hrecorded, rfl⟩, ?_⟩
  exact except_bind_eq_ok.2 ⟨_, hf, rfl⟩

/-- A record that names what the unit declares and the fingerprint that it has is still true. -/
theorem checkRecord_of_fingerprint {name fingerprint : String} {declared : Strategy}
    (h : u.fingerprint = .ok fingerprint) : u.checkRecord name declared
      { strategy? := some declared, fingerprint? := some fingerprint } = .ok () := by
  simp [checkRecord, h, bind, Except.bind, pure, Except.pure, liftM, monadLift, MonadLift.monadLift,
    Except.mapError]

end ClassFile

/-! ### Validation -/

/-- The fields of a unit that can be packed are of fixed size, or components of other classes. -/
theorem Packed.isPackable_of_validate {owner : String} {u : ClassFile} {index : TypeIndex}
    {view : List Field} (hvalid : u.validate .packed index = .ok ())
    (hname : u.name = .ok owner) (hview : u.fieldsView = .ok view) {f : PackedField}
    (hf : f ∈ (PackedLayout.ofFields view).fields) : f.kind.isPackable index owner := by
  obtain ⟨-, g, hg, hstatic, -, hkind⟩ := PackedLayout.mem_ofFields hf
  unfold ClassFile.validate at hvalid
  obtain ⟨name, hname', hvalid⟩ := except_bind_eq_ok.1 hvalid
  obtain rfl := Except.ok.inj (hname.symm.trans (except_liftM_eq_ok.1 hname'))
  obtain ⟨superName?, -, hvalid⟩ := except_bind_eq_ok.1 hvalid
  split at hvalid
  · cases hvalid
  · obtain ⟨fields, hfields, hvalid⟩ := except_bind_eq_ok.1 hvalid
    obtain rfl := Except.ok.inj (hview.symm.trans (except_liftM_eq_ok.1 hfields))
    split at hvalid
    · cases hvalid
    · rename_i hnone
      -- no instance field was found that cannot be packed
      have hpackable := List.find?_eq_none.1 hnone g hg
      simp only [hstatic, Bool.not_false, Bool.true_and, Bool.not_eq_true', Bool.not_eq_false]
        at hpackable
      rw [hkind]
      exact hpackable

end ClassWeave
