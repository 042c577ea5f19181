import ClassWeave.Proofs.Weaving.Failures
import ClassWeave.Proofs.Weaving.Preview

/-!
# What stands in the way of a strategy

Validation goes by what scanning found, and of all other units it only asks which types are packed.
The errors that it finds come from nowhere else: once a unit is valid weaving can still fail, but in
other ways.  So whoever knows which types are packed knows whether weaving fails with one of these
errors, and with which.

* `Scan.Obstacle` : what stands in the way, given which types are packed.
* `ClassFile.validate_eq_error` : validation finds just that.
* `Edit.Unobstructed`, `Edit.unobstructed_weaveBy` : edits fail in other ways.
* `ClassFile.weave_eq_obstacle` : weaving fails so just when validation does.
-/

namespace ClassWeave

/-- The classes of the errors that validation finds. -/
def ErrorKind.obstacles : List ErrorKind :=
  [.unpackableField, .noDefaultConstructor, .alreadyPacked]

theorem Error.kind_malformed_notMem (cause : Malformation) :
    (malformed cause).kind ∉ ErrorKind.obstacles := by
  simp [kind, ErrorKind.obstacles]

theorem Error.kind_unresolved_notMem (name : String) :
    (unresolved name).kind ∉ ErrorKind.obstacles := by
  simp [kind, ErrorKind.obstacles]

/-- Values of the kind can live in a buffer of the class `owner`, given which types are packed. -/
def ValueKind.IsStorable (isPacked : String → Prop) (owner : String) : ValueKind → Prop
  | .object name => name ≠ owner ∧ isPacked name
  | .array _ => False
  | _ => True

theorem ValueKind.isPackable_iff {kind : ValueKind} {index : TypeIndex} {owner : String} :
    kind.isPackable index owner = true ↔
      kind.IsStorable (index.isPacked ·) owner := by
  cases kind <;> simp [isPackable, IsStorable]

namespace Scan

variable {scan : Scan} {isPacked isPacked' : String → Prop} {e : Error}

/-- What stands in the way of the strategy of a unit, given which types are packed: a pooled unit
has no constructor that takes nothing; a packed unit extends the packed base class already, or has a
field that cannot live in a buffer, and this is the first of them. -/
inductive Obstacle (scan : Scan) (isPacked : String → Prop) : Error → Prop
  | constructor : scan.effective = .pooled → scan.hasDefaultConstructor = false →
      Obstacle scan isPacked (.noDefaultConstructor scan.name)
  | base : scan.effective = .packed → scan.superName? = some packedBase →
      Obstacle scan isPacked (.alreadyPacked scan.name)
  | field (front : List Field) (f : Field) (back : List Field) :
      scan.effective = .packed → scan.superName? ≠ some packedBase →
      scan.fields = front ++ f :: back →
      (∀ g ∈ front, g.kind.IsStorable isPacked scan.name) →
      ¬ f.kind.IsStorable isPacked scan.name → Obstacle scan isPacked (.unpackableField f.name)

theorem Obstacle.kind_mem (h : scan.Obstacle isPacked e) : e.kind ∈ ErrorKind.obstacles := by
  cases h <;> simp [Error.kind, ErrorKind.obstacles]

theorem not_obstacle (hnone : scan.effective = .none) : ¬ scan.Obstacle isPacked e := by
  rintro (⟨hpooled, -⟩ | ⟨hpacked, -⟩ | ⟨_, _, _, hpacked, -⟩)
  · cases hnone.symm.trans hpooled
  · cases hnone.symm.trans hpacked
  · cases hnone.symm.trans hpacked

theorem obstacle_of_pooled (hpooled : scan.effective = .pooled) : scan.Obstacle isPacked e ↔
    scan.hasDefaultConstructor = false ∧ e = .noDefaultConstructor scan.name := by
  constructor
  · rintro (⟨-, hnone⟩ | ⟨hpacked, -⟩ | ⟨_, _, _, hpacked, -⟩)
    · exact ⟨hnone, rfl⟩
    · cases hpooled.symm.trans hpacked
    · cases hpooled.symm.trans hpacked
  · rintro ⟨hnone, rfl⟩
    exact .constructor hpooled hnone

theorem obstacle_of_packed (hpacked : scan.effective = .packed) : scan.Obstacle isPacked e ↔
    scan.superName? = some packedBase ∧ e = .alreadyPacked scan.name ∨
      scan.superName? ≠ some packedBase ∧ ∃ front f back, scan.fields = front ++ f :: back ∧
        (∀ g ∈ front, g.kind.IsStorable isPacked scan.name) ∧
        ¬ f.kind.IsStorable isPacked scan.name ∧ e = .unpackableField f.name := by
  constructor
  · rintro (⟨hpooled, -⟩ | ⟨-, hbase⟩ | ⟨front, f, back, -, hbase, hfields, hfront, hf⟩)
    · cases hpacked.symm.trans hpooled
    · exact .inl ⟨hbase, rfl⟩
    · exact .inr ⟨hbase, front, f, back, hfields, hfront, hf, rfl⟩
  · rintro (⟨hbase, rfl⟩ | ⟨hbase, front, f, back, hfields, hfront, hf, rfl⟩)
    · exact .base hpacked hbase
    · exact .field front f back hpacked hbase hfields hfront hf

/-- The types of the fields are all that has to be known. -/
theorem Obstacle.imp (h : scan.Obstacle isPacked e) (hagree : ∀ f ∈ scan.fields, ∀ type,
    f.kind = .object type → (isPacked type ↔ isPacked' type)) : scan.Obstacle isPacked' e := by
  have hstorable (f : Field) (hf : f ∈ scan.fields) : f.kind.IsStorable isPacked scan.name ↔
      f.kind.IsStorable isPacked' scan.name := by
    cases hkind : f.kind with
    | object type => exact and_congr_right' (hagree f hf type hkind)
    | _ => exact Iff.rfl
  cases h with
  | constructor hpooled hnone => exact .constructor hpooled hnone
  | base hpacked hbase => exact .base hpacked hbase
  | field front f back hpacked hbase hfields hfront hf =>
    have hmem (g : Field) (hg : g ∈ front ++ f :: back) : g ∈ scan.fields := hfields ▸ hg
    refine .field front f back hpacked hbase hfields (fun g hg => ?_) fun hf' => hf ?_
    · exact (hstorable g (hmem g (List.mem_append_left _ hg))).1 (hfront g hg)
    · exact (hstorable f (hmem f (List.mem_append_right _ List.mem_cons_self))).2 hf'

theorem obstacle_congr (hagree : ∀ f ∈ scan.fields, ∀ type, f.kind = .object type →
    (isPacked type ↔ isPacked' type)) : scan.Obstacle isPacked e ↔ scan.Obstacle isPacked' e :=
  ⟨fun h => h.imp hagree, fun h => h.imp fun f hf type hkind => (hagree f hf type hkind).symm⟩

end Scan

/-! ### Validation -/

namespace ClassFile

variable {u : ClassFile} {index : TypeIndex} {settings : Settings} {scan : Scan} {e : Error}

/-- The search for a field that cannot live in a buffer passes by static fields. -/
theorem find?_isPackable {fields : List Field} {f : Field} {owner : String} :
    (fields.find? fun f => !f.isStatic && !f.kind.isPackable index owner) = some f ↔
      ∃ front back, fields.filter (!·.isStatic) = front ++ f :: back ∧
        (∀ g ∈ front, g.kind.IsStorable (index.isPacked ·) owner) ∧
        ¬ f.kind.IsStorable (index.isPacked ·) owner := by
  have hfilter : (fields.find? fun f => !f.isStatic && !f.kind.isPackable index owner) =
      (fields.filter (!·.isStatic)).find? fun f => !f.kind.isPackable index owner := by
    simp only [List.find?_filter, Bool.decide_and, Bool.decide_eq_true]
  rw [hfilter, List.find?_eq_some_iff_append]
  simp only [Bool.not_eq_true', Bool.not_not, ValueKind.isPackable_iff, ← Bool.not_eq_true]
  constructor
  · rintro ⟨hf, front, back, hfields, hfront⟩
    exact ⟨front, back, hfields, hfront, hf⟩
  · rintro ⟨front, back, hfields, hfront, hf⟩
    exact ⟨hf, front, back, hfields, hfront⟩

/-- When a unit cannot be pooled. -/
theorem validate_pooled_eq_error {name : String} {constructor? : Option Member}
    (hname : u.name = .ok name) (hconstructor : u.findMethod? Scan.constructorName
      Scan.plainDescriptor = .ok constructor?) :
    u.validate .pooled index = .error e ↔
      constructor?.isSome = false ∧ e = .noDefaultConstructor name := by
  simp only [validate, hname, hconstructor]
  cases constructor? <;> simp [bind, Except.bind, pure, Except.pure, liftM, monadLift,
    MonadLift.monadLift, Except.mapError, throw, throwThe, MonadExceptOf.throw, eq_comm]

/-- When a unit cannot be packed. -/
theorem validate_packed_eq_error {name : String} {superName? : Option String} {fields : List Field}
    (hname : u.name = .ok name) (hsuper : u.superName? = .ok superName?)
    (hfields : u.fieldsView = .ok fields) :
    u.validate .packed index = .error e ↔
      superName? = some packedBase ∧ e = .alreadyPacked name ∨
        superName? ≠ some packedBase ∧ ∃ front f back,
          fields.filter (!·.isStatic) = front ++ f :: back ∧
          (∀ g ∈ front, g.kind.IsStorable (index.isPacked ·) name) ∧
          ¬ f.kind.IsStorable (index.isPacked ·) name ∧ e = .unpackableField f.name := by
  simp only [validate, hname, hsuper, hfields]
  show (if superName? = some packedBase then _ else _) = _ ↔ _
  split_ifs with hbase
  · constructor
    · exact fun h => .inl ⟨hbase, (Except.error.inj h).symm⟩
    · rintro (⟨-, rfl⟩ | ⟨hnot, -⟩)
      · rfl
      · exact absurd hbase hnot
  · rw [or_iff_right fun h => hbase h.1, and_iff_right hbase]
    constructor
    · intro h
      rcases except_bind_eq_error.1 h with hview | ⟨view, hview, h⟩
      · cases hview
      obtain rfl := Except.ok.inj (except_liftM_eq_ok.1 hview)
      split at h
      · rename_i f hfind
        obtain ⟨front, back, hshown, hfront, hf⟩ := find?_isPackable.1 hfind
        exact ⟨front, f, back, hshown, hfront, hf, (Except.error.inj h).symm⟩
      · cases h
    · rintro ⟨front, f, back, hshown, hfront, hf, rfl⟩
      refine except_bind_eq_error.2 (.inr ⟨fields, rfl, ?_⟩)
      rw [find?_isPackable.2 ⟨front, back, hshown, hfront, hf⟩]
      rfl

/-- **Validation finds what stands in the way.** -/
theorem validate_eq_error (hscan : u.scan = .ok scan) :
    u.validate scan.effective index = .error e ↔ scan.Obstacle (index.isPacked ·) e := by
  obtain ⟨name, declared, woven?, fields, superName?, constructor?, reset?, hname, -, -, -, hfields,
    hsuper, hconstructor, -, heq⟩ := scan_eq_ok.1 hscan
  cases heffective : scan.effective with
  | none =>
    rw [validate_none hscan]
    exact ⟨nofun, fun h => absurd h (Scan.not_obstacle heffective)⟩
  | pooled =>
    rw [Scan.obstacle_of_pooled heffective, validate_pooled_eq_error hname hconstructor, heq]
  | packed =>
    rw [Scan.obstacle_of_packed heffective, validate_packed_eq_error hname hsuper hfields, heq]

end ClassFile

/-! ### Edits -/

namespace Edit

variable {α β : Type} {act : Edit α}

/-- The computation does not fail with an error of validation. -/
def Unobstructed (act : Edit α) : Prop := ∀ u e, Fails act u e → e.kind ∉ ErrorKind.obstacles

theorem Unobstructed.bind {f : α → Edit β} (h : Unobstructed act)
    (hf : ∀ a, Unobstructed (f a)) : Unobstructed (act >>= f) := by
  intro u e hfails
  rcases fails_bind.1 hfails with hact | ⟨a, t, -, hact⟩
  · exact h u e hact
  · exact hf a t e hact

theorem unobstructed_pure (a : α) : Unobstructed (pure a : Edit α) :=
  fun _ _ h => absurd h not_fails_pure

theorem unobstructed_get : Unobstructed (get : Edit ClassFile) :=
  fun _ _ h => absurd h not_fails_get

theorem unobstructed_set (t : ClassFile) : Unobstructed (set t : Edit Unit) :=
  fun _ _ h => absurd h not_fails_set

theorem unobstructed_modify (f : ClassFile → ClassFile) : Unobstructed (modify f : Edit Unit) :=
  fun _ _ h => absurd h not_fails_modify

theorem unobstructed_throw {e : Error} (he : e.kind ∉ ErrorKind.obstacles) :
    Unobstructed (throw e : Edit α) := by
  intro u e' h
  rw [fails_throw.1 h]
  exact he

theorem unobstructed_ask (question : ClassFile → Except Malformation α) :
    Unobstructed (ask question) := by
  intro u e h
  obtain ⟨cause, -, rfl⟩ := fails_ask.1 h
  exact Error.kind_malformed_notMem cause

theorem unobstructed_grow (growth : Growing α) : Unobstructed (grow growth) := by
  intro u e h
  obtain ⟨cause, -, rfl⟩ := fails_grow.1 h
  exact Error.kind_malformed_notMem cause

theorem unobstructed_interning (growth : Interning α) : Unobstructed (interning growth) :=
  unobstructed_grow _

theorem unobstructed_rewriteSites
    (choose : ConstantPool → Member → Instruction.Site → Except Malformation Bool)
    (redirect : ConstantPool → Instruction.Site → Interning Instruction.Site) :
    Unobstructed (rewriteSites choose redirect) := by
  refine (unobstructed_ask _).bind fun chosen => unobstructed_get.bind fun u => ?_
  split
  refine (unobstructed_set _).bind fun _ => ?_
  split
  · exact unobstructed_throw (Error.kind_malformed_notMem _)
  · exact unobstructed_pure _

theorem unobstructed_reparent (old new : String) : Unobstructed (reparent old new) := by
  refine (unobstructed_ask _).bind fun superName? => ?_
  split
  · refine Unobstructed.bind ?_ fun _ => unobstructed_rewriteSites _ _
    exact (unobstructed_interning _).bind fun _ => unobstructed_modify _
  · exact unobstructed_pure _

theorem unobstructed_pooled : Unobstructed Pooled.apply := by
  refine (unobstructed_ask _).bind fun owner => (unobstructed_ask _).bind fun reset? => ?_
  split
  · refine Unobstructed.bind ?_ fun _ => unobstructed_reparent _ _
    exact (unobstructed_ask _).bind fun _ => unobstructed_grow _
  · exact unobstructed_reparent _ _

theorem unobstructed_staticInit (owner : String) (layout : PackedLayout) :
    Unobstructed (Packed.addStaticInit owner layout) := by
  refine (unobstructed_ask _).bind fun init? => ?_
  split
  · exact unobstructed_grow _
  · exact unobstructed_pure _

theorem unobstructed_packed (index : TypeIndex) : Unobstructed (Packed.apply index) := by
  refine (unobstructed_ask _).bind fun owner => (unobstructed_ask _).bind fun view => ?_
  -- what follows once all nested types are known to be packed
  have hrest : Unobstructed (do
      Packed.rewriteAccesses owner (.ofFields view)
      modify fun u => { u with fields := u.fields.filter (!·.isInstance) }
      grow (Packed.addSharedFields (.ofFields view))
      Packed.addStaticInit owner (.ofFields view)
      grow (Packed.addMethods owner (.ofFields view))
      reparent plainBase packedBase
      return PackedLayout.ofFields view) := by
    refine (unobstructed_rewriteSites _ _).bind fun _ => (unobstructed_modify _).bind fun _ =>
      (unobstructed_grow _).bind fun _ => (unobstructed_staticInit _ _).bind fun _ =>
        (unobstructed_grow _).bind fun _ => (unobstructed_reparent _ _).bind fun _ =>
          unobstructed_pure _
  cases hnested : Packed.firstUnresolved? index (.ofFields view) with
  | none =>
    simp only [hnested]
    exact hrest
  | some nested =>
    simp only [hnested]
    exact (unobstructed_throw (Error.kind_unresolved_notMem nested)).bind fun _ => hrest

theorem unobstructed_annotate (a : AnnotationInfo) : Unobstructed (annotate a) := by
  refine (unobstructed_ask _).bind fun attributes? => ?_
  cases attributes? with
  | some attributes => exact unobstructed_modify _
  | none => exact (unobstructed_interning _).bind fun _ => unobstructed_modify _

/-- **No edit of a strategy fails with an error of validation.** -/
theorem unobstructed_weaveBy (index : TypeIndex) (s : Strategy) :
    Unobstructed (weaveBy index s) := by
  have happly : Unobstructed (s.apply index) := by
    cases s with
    | none => exact unobstructed_pure _
    | pooled => exact unobstructed_pooled.bind fun _ => unobstructed_pure _
    | packed => exact (unobstructed_packed index).bind fun _ => unobstructed_pure _
  refine happly.bind fun layout? => ?_
  split
  · refine Unobstructed.bind ?_ fun _ => unobstructed_pure _
    exact (unobstructed_ask _).bind fun _ => (unobstructed_interning _).bind fun _ =>
      unobstructed_annotate _
  · exact unobstructed_pure _

end Edit

/-! ### Weaving -/

namespace ClassFile

variable {u : ClassFile} {index : TypeIndex} {settings : Settings} {scan : Scan} {e : Error}

theorem checkSuperclass_unobstructed (h : u.checkSuperclass index settings = .error e) :
    e.kind ∉ ErrorKind.obstacles := by
  rcases except_bind_eq_error.1 h with hsuper | ⟨superName?, -, h⟩
  · obtain ⟨cause, -, rfl⟩ := except_liftM_eq_error.1 hsuper
    exact Error.kind_malformed_notMem cause
  · cases superName? with
    | none => cases h
    | some superName =>
      simp only at h
      split at h
      · cases h
        exact Error.kind_unresolved_notMem superName
      · cases h

/-- Applying a strategy does not fail with an error of validation. -/
theorem transform_unobstructed {s : Strategy} (h : u.transform s index settings = .error e) :
    e.kind ∉ ErrorKind.obstacles := by
  rcases except_bind_eq_error.1 h with hname | ⟨name, -, h⟩
  · obtain ⟨cause, -, rfl⟩ := except_liftM_eq_error.1 hname
    exact Error.kind_malformed_notMem cause
  rcases except_bind_eq_error.1 h with hsuper | ⟨_, -, h⟩
  · exact checkSuperclass_unobstructed hsuper
  generalize hrun : (Edit.weaveBy index s).run u = result at h
  obtain ⟨found | layout?, unit⟩ := result
  · cases h
    exact Edit.unobstructed_weaveBy index s u e (congrArg Prod.fst hrun)
  · rcases except_bind_eq_error.1 h with hbytes | ⟨_, -, h⟩
    · obtain ⟨cause, -, rfl⟩ := except_liftM_eq_error.1 hbytes
      exact Error.kind_malformed_notMem cause
    · cases h

/-- **Weaving fails with an error of validation** just when something stands in the way. -/
theorem weave_eq_obstacle (hscan : u.scan = .ok scan) (he : e.kind ∈ ErrorKind.obstacles) :
    u.weave index settings = .error e ↔
      scan.Obstacle (index.isPacked ·) e := by
  rw [← validate_eq_error hscan, weave_of_scan index settings hscan]
  split_ifs with hidle
  · rw [hidle, validate_none hscan]
    exact ⟨nofun, nofun⟩
  · rw [except_bind_eq_error]
    refine or_iff_left ?_
    rintro ⟨_, -, htransform⟩
    exact transform_unobstructed (except_map_eq_error.1 htransform) he

end ClassFile

end ClassWeave
