import ClassWeave.Proofs.Weaving.Conservative
import ClassWeave.Proofs.Weaving.Scan

/-!
# Scanning woven units

The woven marker stands among the annotations that were there, and is found where scanning looks for
it.  So a woven unit is known as such, and weaving leaves it alone.

* `AnnotationInfo.stringElement?_of_lookup` : the texts of a new annotation are found by name.
* `ClassFile.findAnnotation?_of_annotated` : annotations are found as before, and the new one too.
* `ClassFile.scan_of_weave` : what scanning a woven unit finds.
* `ClassFile.weave_woven` : weaving a woven unit leaves it alone.
-/

namespace ClassWeave

/-! ### The marker -/

namespace AnnotationInfo

variable {p : ConstantPool} {texts : List (String × String)} {name text : String}

theorem elementIn?_of_lookup {elements : List (UInt16 × Element)}
    (h : List.Forall₂ (IsStringElement p) texts elements) (hname : texts.lookup name = some text) :
    ∃ value, elementIn? p name elements = .ok (some (.const stringTag value)) ∧
      p.utf8 value = .ok text := by
  induction h with
  | nil => cases hname
  | @cons pair e texts elements he _ ih =>
    obtain ⟨own, own'⟩ := pair
    obtain ⟨n, v⟩ := e
    obtain ⟨hown, value, hv, hvalue⟩ := he
    by_cases heq : own = name
    · have hfirst : own' = text := by simpa [List.lookup_cons, heq] using hname
      refine ⟨value, except_bind_eq_ok.2 ⟨own, hown, ?_⟩, hfirst ▸ hvalue⟩
      rw [if_pos heq]
      exact congrArg (fun v => Except.ok (some v)) hv
    · have hlater : texts.lookup name = some text := by
        have hbeq : (name == own) = false := by simpa using Ne.symm heq
        rwa [List.lookup_cons, hbeq] at hname
      obtain ⟨value, hfound, hvalue⟩ := ih hlater
      refine ⟨value, except_bind_eq_ok.2 ⟨own, hown, ?_⟩, hvalue⟩
      rw [if_neg heq]
      exact hfound

/-- The texts of a new annotation are found by name. -/
theorem stringElement?_of_lookup {a : AnnotationInfo}
    (h : List.Forall₂ (IsStringElement p) texts a.elements)
    (hname : texts.lookup name = some text) :
    stringElement? p name a = .ok (some text) := by
  obtain ⟨value, hfound, hvalue⟩ := elementIn?_of_lookup h hname
  refine except_bind_eq_ok.2 ⟨_, hfound, ?_⟩
  simp only [if_pos]
  exact except_map_eq_ok.2 ⟨text, hvalue, rfl⟩

end AnnotationInfo

namespace ClassFile

variable {index : TypeIndex} {settings : Settings} {u t : ClassFile} {a : AnnotationInfo}

/-- An annotation that was added stands among those that were there. -/
theorem exists_annotations_of_annotated (hpool : u.pool.Extends t.pool)
    (ha : Edit.AnnotatedWith a t.pool u.attributes t.attributes)
    {list : List (AnnotationInfo × Bool)} (h : u.annotations = .ok list) :
    ∃ l₁ l₂, list = l₁ ++ l₂ ∧ t.annotations = .ok (l₁ ++ (a, false) :: l₂) := by
  obtain ⟨front, name, own, back, hname, hbs, has⟩ := ha
  have h : annotationsOf t.pool u.attributes = .ok list := annotationsOf_mono hpool h
  -- what stands in front, and what stands behind
  obtain ⟨lf, lb, hfront, hback, hlist⟩ : ∃ lf lb, annotationsOf t.pool front = .ok lf ∧
      annotationsOf t.pool back = .ok lb ∧ list = (lf ++ own.map (·, false)) ++ lb := by
    rcases has with has | ⟨rfl, rfl, has⟩
    · rw [has] at h
      obtain ⟨lf, lr, hfront, hrest, rfl⟩ := annotationsOf_append_eq_ok.1 h
      obtain ⟨text, htext, hrest⟩ := except_bind_eq_ok.1 hrest
      obtain ⟨lb, hback, hrest⟩ := except_bind_eq_ok.1 hrest
      obtain rfl := Except.ok.inj (hname.symm.trans htext)
      obtain rfl := except_pure_eq_ok.1 hrest
      exact ⟨lf, lb, hfront, hback, (List.append_assoc ..).symm⟩
    · exact ⟨list, [], has ▸ h, rfl, by simp⟩
  refine ⟨_, lb, hlist, ?_⟩
  unfold annotations
  rw [hbs]
  refine annotationsOf_append_eq_ok.2 ⟨lf, (own ++ [a]).map (·, false) ++ lb, hfront, ?_, ?_⟩
  · refine except_bind_eq_ok.2 ⟨_, hname, except_bind_eq_ok.2 ⟨lb, hback, ?_⟩⟩
    rfl
  · simp

/-- Annotations are found as they were, and so is one that was added if there was none of its
type. -/
theorem findAnnotation?_of_annotated (hpool : u.pool.Extends t.pool)
    (ha : Edit.AnnotatedWith a t.pool u.attributes t.attributes) {own : String}
    (hown : AnnotationInfo.typeDescriptor t.pool a = .ok own) :
    (∀ type r, type ≠ own → u.findAnnotation? type = .ok r → t.findAnnotation? type = .ok r) ∧
      (u.findAnnotation? own = .ok none → t.findAnnotation? own = .ok (some a)) := by
  constructor
  · intro type r hne h
    obtain ⟨list, hlist, h⟩ := except_bind_eq_ok.1 h
    obtain ⟨l₁, l₂, rfl, hannotations⟩ := exists_annotations_of_annotated hpool ha hlist
    exact except_bind_eq_ok.2 ⟨_, hannotations,
      firstOfType?_insert_of_ne hown hne.symm (firstOfType?_mono hpool h)⟩
  · intro h
    obtain ⟨list, hlist, h⟩ := except_bind_eq_ok.1 h
    obtain ⟨l₁, l₂, rfl, hannotations⟩ := exists_annotations_of_annotated hpool ha hlist
    exact except_bind_eq_ok.2 ⟨_, hannotations,
      firstOfType?_insert hown (firstOfType?_mono hpool h)⟩

/-! ### Woven units -/

/-- What is declared is no woven marker. -/
theorem marker?_ne_wovenMarker {s : Strategy} {descriptor : String}
    (h : s.marker? = some descriptor) : descriptor ≠ wovenMarker := by
  cases s with
  | none => cases h
  | pooled | packed =>
    obtain rfl := Option.some.inj h
    decide

/-- Methods can still be looked for. -/
theorem Conserved.exists_findMethod? (h : u.Conserved t) {name descriptor : String}
    {m? : Option Member} (hm : u.findMethod? name descriptor = .ok m?) :
    ∃ m?, t.findMethod? name descriptor = .ok m? := by
  obtain ⟨old, new, hmethods, hold, hnew⟩ := h.methods
  unfold findMethod?
  rw [hmethods]
  exact exists_firstMethod? h.pool (hold.imp fun _ _ hm => hm.sameHead)
    (fun m hm => (hnew m hm).texts) ⟨m?, hm⟩

/-- Weaving keeps the name of a unit. -/
theorem name_of_woven {r : Woven} (h : u.weave index settings = .ok (some r)) :
    r.unit.name = .ok r.name := by
  obtain ⟨_, -, -, hne, hname, hsuper, -, hgives, -⟩ := weave_eq_ok h
  obtain ⟨_, hr, -⟩ := exists_reworked hne hsuper hgives
  unfold ClassFile.name
  rw [hr.thisClass]
  exact hr.pool.className hname

/-- **Scanning a woven unit** finds what the unit declared, and the record of how it was woven. -/
theorem scan_of_weave {r : Woven} (h : u.weave index settings = .ok (some r)) :
    ∃ scan fingerprint, r.unit.scan = .ok scan ∧ scan.declared = r.strategy ∧
      scan.effective = .none ∧ r.unit.fingerprint = .ok fingerprint ∧
      scan.woven? = some { strategy? := some r.strategy, fingerprint? := some fingerprint } := by
  obtain ⟨scan, hscan, heffective, hs, -, hchecked, -, hgives, -⟩ := weave_eq_ok h
  obtain ⟨name, declared, woven?, fields, super?, constructor?, reset?, hname, hdeclared, hwoven, -,
    hfields, hsuper, hconstructor, hreset, rfl⟩ := scan_eq_ok.1 hscan
  -- a unit that is woven was not woven before
  obtain ⟨rfl, rfl⟩ : woven? = none ∧ declared = r.strategy := by
    cases woven? with
    | none => exact ⟨rfl, heffective⟩
    | some record => exact absurd heffective.symm hs
  obtain ⟨base, hr, -, marker, fingerprint, hannotated, htype, helements, hfingerprint⟩ :=
    exists_reworked hs hchecked hgives
  have hname' : r.unit.name = .ok name := by
    unfold ClassFile.name
    rw [hr.thisClass]
    exact hr.pool.className hname
  obtain ⟨hother, hnew⟩ := findAnnotation?_of_annotated hr.pool hannotated htype
  have hdeclared' : r.unit.declaredStrategy = .ok r.strategy :=
    declaredStrategy_of_findAnnotation?
      (fun s descriptor a? hs ha => hother descriptor a? (marker?_ne_wovenMarker hs) ha) hdeclared
  have hwoven' := wovenRecord?_of_findAnnotation? (hnew (wovenRecord?_eq_none.1 hwoven))
    (AnnotationInfo.stringElement?_of_lookup helements rfl)
    (AnnotationInfo.stringElement?_of_lookup helements rfl)
  obtain ⟨view, hview⟩ :=
    exists_fieldsView_iff.2 (hr.viewable (exists_fieldsView_iff.1 ⟨fields, hfields⟩))
  obtain ⟨super'?, hsuper'⟩ := hr.named ⟨super?, hsuper⟩
  obtain ⟨constructor'?, hconstructor'⟩ := hr.exists_findMethod? hconstructor
  obtain ⟨reset'?, hreset'⟩ := hr.exists_findMethod? hreset
  refine ⟨_, fingerprint, scan_eq_ok.2 ⟨name, r.strategy, _, view, super'?, constructor'?, reset'?,
    hname', hdeclared', hwoven', fun record hrecord => ?_, hview, hsuper', hconstructor', hreset',
    rfl⟩, rfl, rfl, hfingerprint, rfl⟩
  obtain rfl := Option.some.inj hrecord
  exact checkRecord_of_fingerprint hfingerprint

/-- **Weaving twice is weaving once.**  Whatever the index and the settings, a woven unit is left
alone, and scanning it finds what was done. -/
theorem weave_woven {r : Woven} (h : u.weave index settings = .ok (some r)) :
    (∀ index' settings', r.unit.weave index' settings' = .ok none) ∧
      ∃ scan fingerprint, r.unit.scan = .ok scan ∧ scan.declared = r.strategy ∧
        scan.effective = .none ∧ r.unit.fingerprint = .ok fingerprint ∧
        scan.woven? = some { strategy? := some r.strategy, fingerprint? := some fingerprint } := by
  obtain ⟨scan, fingerprint, hscan, hdeclared, heffective, hrest⟩ := scan_of_weave h
  refine ⟨fun index' settings' => ?_, scan, fingerprint, hscan, hdeclared, heffective, hrest⟩
  exact weave_eq_none.2 ⟨scan, hscan, heffective⟩

/-- A class without fields is pooled, and then left alone. -/
theorem weave_woven_pooled :
    let u : ClassFile :=
      { minor := 0, major := 52,
        pool := ⟨#[none, some (.utf8 "A"), some (.classInfo 1), some (.utf8 "java/lang/Object"),
          some (.classInfo 3), some (.utf8 "<init>"), some (.utf8 "()V"),
          some (.utf8 "RuntimeInvisibleAnnotations"),
          some (.utf8 "Lcom/artemis/annotations/PooledWeaver;")]⟩,
        access := 0x21, thisClass := 2, superClass := 4, interfaces := [], fields := [],
        methods := [{ access := 1, name := 5, descriptor := 6, attributes := [] }],
        attributes := [.annotations 7 [{ type := 8, elements := [] }]] }
    ∃ r, u.weave .empty {} = .ok (some r) ∧ r.strategy = .pooled ∧
      (∀ index settings, r.unit.weave index settings = .ok none) ∧
        ∃ scan, r.unit.scan = .ok scan ∧ scan.declared = .pooled ∧ scan.effective = .none := by
  intro u
  have hresult : Option.map Woven.strategy <$> u.weave .empty {} = .ok (some .pooled) := by
    decide +kernel
  obtain ⟨r, hweave, hstrategy⟩ := except_map_some_eq_ok.1 hresult
  obtain ⟨hagain, scan, -, hscan, hdeclared, heffective, -⟩ := weave_woven hweave
  exact ⟨r, hweave, hstrategy, hagain, scan, hscan, hdeclared.trans hstrategy, heffective⟩

end ClassFile

end ClassWeave
