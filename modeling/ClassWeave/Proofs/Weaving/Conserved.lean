import ClassWeave.Proofs.ClassFile.Questions
import ClassWeave.Proofs.Descriptor
import ClassWeave.Proofs.Packed.Apply
import ClassWeave.Proofs.Packed.Layout
import ClassWeave.Proofs.Pooled.Apply

/-!
# What weaving leaves alone

Both strategies grow the pool, put member instructions in place of others, append members, drop
instance fields, and may replace the superclass.  Everything else about a unit stays.

* `Member.Retouched` : a method with other member instructions in its body.
* `Member.IsAddition` : a method that was generated: nobody outside can call it.
* `ClassFile.Conserved` : a unit and what one or more edits make of it.
* `ClassFile.Reworked` : a unit and what a strategy makes of it; `Pooled.Applied.reworked`,
  `Packed.Applied.reworked`.
-/

namespace ClassWeave

/-! ### Method bodies -/

namespace Attribute

variable {f g : Code → Code} {as : List Attribute}

theorem mapCode_id : mapCode id as = as := by
  induction as with
  | nil => rfl
  | cons a as ih =>
    cases a with
    | raw | annotations =>
      rw [mapCode, ih]
      simp
    | code name body => rfl

theorem mapCode_mapCode : mapCode g (mapCode f as) = mapCode (g ∘ f) as := by
  induction as with
  | nil => rfl
  | cons a as ih =>
    cases a with
    | raw | annotations => simp [mapCode, ih]
    | code name body => rfl

theorem code?_mapCode : code? (mapCode f as) = (code? as).map f := by
  induction as with
  | nil => rfl
  | cons a as ih =>
    cases a with
    | raw | annotations =>
      simpa [mapCode, code?] using ih
    | code name body => rfl

end Attribute

namespace Member

open Instruction (Site)

variable {m m' m'' : Member}

/-- A method body with its instructions edited. -/
def editCode (edit : Bytes → Bytes) (m : Member) : Member :=
  m.mapCode fun body => { body with instructions := edit body.instructions }

/-- The second method is the first with other member instructions in its first body. -/
def Retouched (m m' : Member) : Prop :=
  ∃ edit, m' = m.editCode edit ∧
    ∀ body, m.code? = some body → Instruction.Retouched body.instructions (edit body.instructions)

theorem code?_editCode (edit : Bytes → Bytes) : (m.editCode edit).code? =
    m.code?.map fun body => { body with instructions := edit body.instructions } :=
  Attribute.code?_mapCode

theorem Retouched.sameHead (h : m.Retouched m') : m.SameHead m' := by
  obtain ⟨edit, rfl, -⟩ := h
  exact ⟨rfl, rfl, rfl⟩

theorem Retouched.refl (m : Member) : m.Retouched m := by
  refine ⟨id, ?_, fun body _ => .refl _⟩
  show m = { m with attributes := Attribute.mapCode id m.attributes }
  rw [Attribute.mapCode_id]

theorem Retouched.trans (h : m.Retouched m') (h' : m'.Retouched m'') : m.Retouched m'' := by
  obtain ⟨edit, rfl, hedit⟩ := h
  obtain ⟨edit', rfl, hedit'⟩ := h'
  refine ⟨edit' ∘ edit, ?_, fun body hbody => (hedit body hbody).trans ?_⟩
  · simp only [editCode, mapCode, Attribute.mapCode_mapCode]
    rfl
  · exact hedit' _ (by rw [code?_editCode, hbody, Option.map_some])

end Member

namespace Edit

open Instruction (Site swapped)

variable {m m' : Member} {p q : ConstantPool}

/-- A member instruction that was not chosen stays, and one that was is redirected. -/
def Turned (choose : Site → Except Malformation Bool) (redirect : Site → Interning Site)
    (p q : ConstantPool) (s s' : Site) : Prop :=
  choose s = .ok false ∧ s' = s ∨ choose s = .ok true ∧ Redirected redirect p q s s'

/-- What is chosen may be replaced, and redirecting keeps it so and where it is. -/
structure Exchanges (choose : Member → Site → Except Malformation Bool)
    (redirect : Site → Interning Site) : Prop where
  /-- Only instructions that may be replaced are chosen. -/
  chosen : ∀ m s, choose m s = .ok true → s.opcode ∈ swapped
  /-- They are replaced by such instructions. -/
  redirected : ∀ s a s' b, s.opcode ∈ swapped → Gives (redirect s) a s' b →
    s'.offset = s.offset ∧ s'.opcode ∈ swapped

section

variable {choose : Member → Site → Except Malformation Bool} {redirect : Site → Interning Site}

theorem Exchanges.offset_of_turned (hexchanges : Exchanges choose redirect) {s s' : Site}
    (h : Turned (choose m) redirect p q s s') : s'.offset = s.offset := by
  rcases h with ⟨-, rfl⟩ | ⟨hchosen, a, b, -, hgives, -⟩
  · rfl
  · exact (hexchanges.redirected s a s' b (hexchanges.chosen m s hchosen) hgives).1

/-- **Rewriting retouches a method**, and turns its member instructions one by one. -/
theorem retouched_of_rewritten (hexchanges : Exchanges choose redirect)
    (h : Rewritten choose redirect p q m m') :
    m.Retouched m' ∧ ∀ body, m.code? = some body → ∃ body' sites sites', m'.code? = some body' ∧
      Instruction.memberSites body.instructions = .ok sites ∧
      Instruction.memberSites body'.instructions = .ok sites' ∧
      List.Forall₂ (Turned (choose m) redirect p q) sites sites' := by
  obtain ⟨chosen, done, hchosen, hdone, rfl⟩ := h
  have hcode : (withSites done m).code? = m.code?.map fun body =>
      { body with instructions := Instruction.replace done body.instructions } :=
    m.code?_editCode (Instruction.replace done)
  unfold sitesOf at hchosen
  cases hbody : m.code? with
  | none => exact ⟨⟨_, rfl, by simp [hbody]⟩, nofun⟩
  | some body =>
  simp only [hbody] at hchosen
  obtain ⟨sites, hsites, hfilter⟩ := except_bind_eq_ok.1 hchosen
  obtain ⟨htest, rfl⟩ := except_filterM_eq_ok hfilter
  have hpassed : ∀ s ∈ sites.filter (passes (choose m)), choose m s = .ok true :=
    test_of_filterM hfilter
  have hswap : List.Forall₂ Instruction.Swap (sites.filter (passes (choose m))) done := by
    refine List.forall₂_iff_zip.2 ⟨hdone.length_eq, fun {s s'} hzip => ?_⟩
    obtain ⟨a, b, -, hgives, -⟩ := List.forall₂_zip hdone hzip
    have hopcode := hexchanges.chosen m s (hpassed s (List.of_mem_zip hzip).1)
    obtain ⟨hoffset, hopcode'⟩ := hexchanges.redirected s a s' b hopcode hgives
    exact ⟨hoffset, hopcode, hopcode'⟩
  obtain ⟨hretouched, sites', hsites', hall⟩ :=
    Instruction.exists_sites_replace hsites List.filter_sublist hswap
  refine ⟨⟨_, rfl, ?_⟩, ?_⟩
  · intro body' hbody'
    obtain rfl := Option.some.inj (hbody.symm.trans hbody')
    exact hretouched
  · rintro _ ⟨⟩
    refine ⟨_, sites, sites', by rw [hcode, hbody, Option.map_some], hsites, hsites', ?_⟩
    refine List.forall₂_iff_zip.2 ⟨hall.length_eq, fun {s s'} hzip => ?_⟩
    rcases List.forall₂_zip hall hzip with ⟨heq, hnot⟩ | hzip'
    · have hmem : s ∈ sites := (List.of_mem_zip hzip).1
      have hfalse : passes (choose m) s = false := by
        simpa [hmem] using hnot
      exact .inl ⟨hfalse ▸ htest s hmem, heq⟩
    · exact .inr ⟨hpassed s (List.of_mem_zip hzip').1, List.forall₂_zip hdone hzip'⟩

end

/-! ### Constructor calls -/

variable {old new owner : String} {s s' : Site}

/-- A member instruction of a constructor calls a constructor of the class `owner`. -/
theorem callsConstructorOf_eq_true : callsConstructorOf owner p m s = .ok true ↔
    s.opcode = Opcode.invokeSpecial ∧ m.nameIn p = .ok "<init>" ∧
      ∃ target, p.memberRef s.operand = .ok target ∧ target.owner = owner ∧
        target.name = "<init>" := by
  unfold callsConstructorOf
  by_cases hopcode : s.opcode = Opcode.invokeSpecial
  · rw [if_neg (by simpa using hopcode), except_bind_eq_ok]
    constructor
    · rintro ⟨name, hname, h⟩
      split_ifs at h with hother
      · cases h
      obtain ⟨target, htarget, h⟩ := except_bind_eq_ok.1 h
      have hboth := except_pure_eq_ok.1 h
      simp only [Bool.true_eq, Bool.and_eq_true, decide_eq_true_eq] at hboth
      exact ⟨hopcode, (not_not.1 hother) ▸ hname, target, htarget, hboth⟩
    · rintro ⟨-, hname, target, htarget, howner, hinit⟩
      refine ⟨_, hname, ?_⟩
      rw [if_neg (by simp)]
      refine except_bind_eq_ok.2 ⟨target, htarget, ?_⟩
      simp [howner, hinit, pure, Except.pure]
  · rw [if_pos hopcode]
    simp [hopcode, pure, Except.pure]

/-- Whether an instruction is such a call stays known while the pool grows. -/
theorem callsConstructorOf_mono (hpq : p.Extends q) {answer : Bool}
    (h : callsConstructorOf owner p m s = .ok answer) :
    callsConstructorOf owner q m s = .ok answer := by
  unfold callsConstructorOf at h ⊢
  split_ifs at h ⊢ with hopcode
  · exact h
  · obtain ⟨name, hname, h⟩ := except_bind_eq_ok.1 h
    refine except_bind_eq_ok.2 ⟨name, hpq.utf8 hname, ?_⟩
    split_ifs at h ⊢
    · exact h
    · obtain ⟨target, htarget, h⟩ := except_bind_eq_ok.1 h
      exact except_bind_eq_ok.2 ⟨target, hpq.memberRef htarget, h⟩

/-- A call of a method of another class is none. -/
theorem callsConstructorOf_of_owner_ne {name : String} {target : MemberRef}
    (hname : m.nameIn p = .ok name) (htarget : p.memberRef s.operand = .ok target)
    (hne : target.owner ≠ owner) : callsConstructorOf owner p m s = .ok false := by
  unfold callsConstructorOf
  split_ifs
  · rfl
  · refine except_bind_eq_ok.2 ⟨name, hname, ?_⟩
    split_ifs
    · rfl
    · refine except_bind_eq_ok.2 ⟨target, htarget, ?_⟩
      simp [hne, pure, Except.pure]

/-- No instruction of the method, if it is a constructor, calls a constructor of the class
`owner`. -/
def CallsNoConstructorOf (owner : String) (pool : ConstantPool) (m : Member) : Prop :=
  ∀ body, m.code? = some body → ∃ sites, Instruction.memberSites body.instructions = .ok sites ∧
    ∀ s ∈ sites, callsConstructorOf owner pool m s = .ok false

theorem CallsNoConstructorOf.mono (hpq : p.Extends q) (h : CallsNoConstructorOf owner p m) :
    CallsNoConstructorOf owner q m := by
  intro body hbody
  obtain ⟨sites, hsites, hall⟩ := h body hbody
  exact ⟨sites, hsites, fun s hs => callsConstructorOf_mono hpq (hall s hs)⟩

theorem exchanges_constructors (old new : String) (p q : ConstantPool) :
    Exchanges (callsConstructorOf old p) (redirectConstructor new q) := by
  refine ⟨fun m s hs => ?_, fun s a s' b hs hgives => ?_⟩
  · rw [(callsConstructorOf_eq_true.1 hs).1]
    decide
  · obtain ⟨-, hoffset, hopcode, -⟩ := gives_redirectConstructor hgives
    exact ⟨hoffset, hopcode ▸ hs⟩

/-- Moving to another superclass retouches methods, and no constructor calls one of the old
superclass any more. -/
theorem retouched_of_reparented (hpq : p.Extends q) (hne : new ≠ old)
    (h : Rewritten (callsConstructorOf old p) (redirectConstructor new p) p q m m') :
    m.Retouched m' ∧ CallsNoConstructorOf old q m' := by
  obtain ⟨hretouched, hsites⟩ := retouched_of_rewritten (exchanges_constructors old new p p) h
  obtain ⟨edit, rfl, hedit⟩ := hretouched
  refine ⟨⟨edit, rfl, hedit⟩, fun body' hbody' => ?_⟩
  rw [Member.code?_editCode] at hbody'
  obtain ⟨body, hbody, -⟩ := Option.map_eq_some_iff.1 hbody'
  obtain ⟨_, sites, sites', hcode, -, hmember, hall⟩ := hsites body hbody
  rw [Member.code?_editCode] at hcode
  obtain rfl := Option.some.inj (hbody'.symm.trans hcode)
  refine ⟨sites', hmember, fun s' hs' => ?_⟩
  obtain ⟨s, -, hturned⟩ := exists_of_mem_right hall hs'
  -- the method has kept its name
  show callsConstructorOf old q m s' = .ok false
  rcases hturned with ⟨hfalse, rfl⟩ | ⟨hchosen, a, b, -, hgives, hbq⟩
  · exact callsConstructorOf_mono hpq hfalse
  · obtain ⟨-, hname, -⟩ := callsConstructorOf_eq_true.1 hchosen
    obtain ⟨-, -, -, target, -, htarget⟩ := gives_redirectConstructor hgives
    exact callsConstructorOf_of_owner_ne (hpq.utf8 hname) (hbq.memberRef htarget) hne

end Edit

theorem Packed.exchanges_accesses (owner : String) (layout : PackedLayout) (p : ConstantPool) :
    Edit.Exchanges (accessesLayout owner layout p) (redirectAccess owner layout p) := by
  refine ⟨fun m s hs => ?_, fun s a s' b _ hgives => ?_⟩
  · unfold accessesLayout at hs
    split_ifs at hs with hother
    · cases hs
    · simp only [Instruction.swapped, List.mem_cons]
      tauto
  · obtain ⟨-, hoffset, hopcode, -⟩ := gives_redirectAccess hgives
    exact ⟨hoffset, hopcode ▸ by decide⟩

/-! ### Units -/

/-- The method was generated: its texts are there, and nobody outside can call it. -/
structure Member.IsAddition (pool : ConstantPool) (m : Member) : Prop where
  /-- It is not public. -/
  access : m.access.has Access.publicFlag = false
  /-- It has a name and a descriptor. -/
  texts : m.HasTexts pool

theorem Member.IsAddition.mono {p q : ConstantPool} {m : Member} (hpq : p.Extends q)
    (h : m.IsAddition p) : m.IsAddition q :=
  ⟨h.access, h.texts.mono hpq⟩

theorem Member.IsAddition.retouched {p : ConstantPool} {m m' : Member} (h : m.IsAddition p)
    (hm : m.Retouched m') : m'.IsAddition p := by
  obtain ⟨edit, rfl, -⟩ := hm
  exact ⟨h.access, h.texts⟩

namespace ClassFile

/-- What edits leave alone. -/
structure Conserved (u t : ClassFile) : Prop where
  /-- The pool grows. -/
  pool : u.pool.Extends t.pool
  /-- The minor version stays. -/
  minor : t.minor = u.minor
  /-- The major version stays. -/
  major : t.major = u.major
  /-- The access flags stay. -/
  access : t.access = u.access
  /-- The slot of the class stays. -/
  thisClass : t.thisClass = u.thisClass
  /-- The interfaces stay. -/
  interfaces : t.interfaces = u.interfaces
  /-- The methods are retouched, and others come behind them. -/
  methods : ∃ old new, t.methods = old ++ new ∧ List.Forall₂ Member.Retouched u.methods old ∧
    ∀ m ∈ new, m.IsAddition t.pool
  /-- The static fields stay in front of others. -/
  statics : u.fields.filter (!·.isInstance) <+: t.fields.filter (!·.isInstance)
  /-- Fields can be viewed if they could before. -/
  viewable : Viewable u.pool u.fields → Viewable t.pool t.fields

namespace Conserved

variable {u t v : ClassFile}

theorem refl (u : ClassFile) : u.Conserved u := by
  refine ⟨.refl _, rfl, rfl, rfl, rfl, rfl, ⟨u.methods, [], ?_, ?_, by simp⟩, List.prefix_rfl, id⟩
  · rw [List.append_nil]
  · exact List.forall₂_same.2 fun m _ => .refl m

theorem trans (h : u.Conserved t) (h' : t.Conserved v) : u.Conserved v := by
  obtain ⟨old, new, hmethods, hold, hnew⟩ := h.methods
  obtain ⟨old', new', hmethods', hold', hnew'⟩ := h'.methods
  rw [hmethods] at hold'
  have holdest := List.forall₂_take old.length hold'
  have hmiddle := List.forall₂_drop old.length hold'
  rw [List.take_left] at holdest
  rw [List.drop_left] at hmiddle
  refine ⟨h.pool.trans h'.pool, h'.minor.trans h.minor, h'.major.trans h.major,
    h'.access.trans h.access, h'.thisClass.trans h.thisClass, h'.interfaces.trans h.interfaces,
    ⟨old'.take old.length, old'.drop old.length ++ new', ?_, ?_, ?_⟩,
    h.statics.trans h'.statics, h'.viewable ∘ h.viewable⟩
  · rw [hmethods', ← List.append_assoc, List.take_append_drop]
  · exact forall₂_trans (fun _ _ _ => .trans) hold holdest
  · intro m hm
    rcases List.mem_append.1 hm with hm | hm
    · obtain ⟨m₀, hm₀, hretouched⟩ := exists_of_mem_right hmiddle hm
      exact ((hnew m₀ hm₀).mono h'.pool).retouched hretouched
    · exact hnew' m hm

/-- Members that are gained conserve a unit, if the new fields can be viewed and the new methods are
not public. -/
theorem of_gained {fs : List FieldDesign} {ms : List MethodDesign} (h : u.Gained fs ms t)
    (hfs : ∀ d ∈ fs, ∃ kind, ValueKind.parse d.descriptor = .ok kind)
    (hms : ∀ d ∈ ms, d.access.has Access.publicFlag = false) : u.Conserved t := by
  obtain ⟨hpool, fields, methods, hfields, hmethods, heq⟩ := h
  rw [heq]
  refine ⟨hpool, rfl, rfl, rfl, rfl, rfl, ⟨u.methods, methods, rfl, ?_, ?_⟩, ?_, ?_⟩
  · exact List.forall₂_same.2 fun m _ => .refl m
  · intro m hm
    obtain ⟨d, hmem, hd⟩ := exists_of_mem_right hmethods hm
    refine ⟨?_, ⟨d.name, hd.name⟩, d.descriptor, hd.descriptor⟩
    rw [hd.access]
    exact hms d hmem
  · rw [List.filter_append]
    exact List.prefix_append _ _
  · intro hview f hf
    rcases List.mem_append.1 hf with hf | hf
    · exact hview.mono hpool f hf
    · obtain ⟨d, hmem, hd⟩ := exists_of_mem_right hfields hf
      obtain ⟨kind, hkind⟩ := hfs d hmem
      exact ⟨_, viewOf_eq_ok.2 ⟨d.name, d.descriptor, kind, hd.name, hd.descriptor, hkind, rfl⟩⟩

/-- Retouched methods conserve a unit, and so do another superclass and other attributes. -/
theorem of_retouched (hpool : u.pool.Extends t.pool)
    (hmethods : List.Forall₂ Member.Retouched u.methods t.methods)
    (heq : t = { u with pool := t.pool, superClass := t.superClass, methods := t.methods,
                        attributes := t.attributes }) : u.Conserved t := by
  rw [heq]
  exact ⟨hpool, rfl, rfl, rfl, rfl, rfl,
    ⟨t.methods, [], (List.append_nil _).symm, hmethods, by simp⟩, List.prefix_rfl, .mono hpool⟩

/-- Dropping the instance fields conserves a unit. -/
theorem of_filtered (u : ClassFile) :
    u.Conserved { u with fields := u.fields.filter (!·.isInstance) } := by
  have hself := Conserved.refl u
  refine ⟨.refl _, rfl, rfl, rfl, rfl, rfl, hself.methods, ?_, fun h f hf => ?_⟩
  · rw [List.filter_filter]
    simp
  · exact h f (List.mem_of_mem_filter hf)

end Conserved

/-! ### Strategies -/

/-- What weaving to the base class `base` leaves alone, and what becomes of the superclass. -/
structure Reworked (base : String) (u t : ClassFile) : Prop extends Conserved u t where
  /-- The superclass still has a name if it had one. -/
  named : (∃ name?, u.superName? = .ok name?) → ∃ name?, t.superName? = .ok name?
  /-- A superclass other than the plain base class stays. -/
  superClass : u.superName? ≠ .ok (some plainBase) → t.superClass = u.superClass
  /-- The plain base class is replaced, and with it the calls of its constructors. -/
  rebased : u.superName? = .ok (some plainBase) → t.pool.className t.superClass = .ok base ∧
    ∀ m ∈ t.methods, Edit.CallsNoConstructorOf plainBase t.pool m

variable {u v t : ClassFile} {base : String}

theorem superName?_mono (hpool : u.pool.Extends v.pool) (hsuper : v.superClass = u.superClass)
    {name? : Option String} (h : u.superName? = .ok name?) : v.superName? = .ok name? := by
  unfold superName? at h ⊢
  rw [hsuper]
  split_ifs at h ⊢
  · exact h
  · obtain ⟨name, hname, rfl⟩ := except_map_eq_ok.1 h
    exact except_map_eq_ok.2 ⟨name, hpool.className hname, rfl⟩

theorem exists_superName?_of_className {name : String}
    (h : u.pool.className u.superClass = .ok name) : ∃ name?, u.superName? = .ok name? := by
  unfold superName?
  split_ifs
  · exact ⟨none, rfl⟩
  · exact ⟨some name, except_map_eq_ok.2 ⟨name, h, rfl⟩⟩

/-- Moving to another superclass conserves a unit, and leaves no call of a constructor of the old
one. -/
theorem conserved_of_reparented (hbase : base ≠ plainBase)
    (h : Edit.Reparented plainBase base v t) : v.Conserved t ∧
      ∀ m ∈ t.methods, Edit.CallsNoConstructorOf plainBase t.pool m := by
  obtain ⟨hpool, -, ⟨p, -, hq, hmethods⟩, heq⟩ := h
  have hretouched := hmethods.imp fun m m' hm => Edit.retouched_of_reparented hq hbase hm
  refine ⟨.of_retouched hpool (hretouched.imp fun _ _ hm => hm.1) (by rw [heq]), fun m' hm' => ?_⟩
  obtain ⟨m, -, -, hcalls⟩ := exists_of_mem_right hretouched hm'
  exact hcalls

/-- A unit is edited without a change of the superclass, and then moved to the new base class if it
has the plain one. -/
theorem Conserved.reworked (h : u.Conserved v) (hsuper : v.superClass = u.superClass)
    (hbase : base ≠ plainBase)
    (hmoved : v.superName? = .ok (some plainBase) ∧ Edit.Reparented plainBase base v t ∨
      (∃ name?, v.superName? = .ok name? ∧ name? ≠ some plainBase) ∧ t = v) :
    (∃ name?, u.superName? = .ok name?) → Reworked base u t := by
  rintro ⟨name?, hname⟩
  have hname' := superName?_mono h.pool hsuper hname
  rcases hmoved with ⟨hplain, hmoved⟩ | ⟨⟨other?, hother, hne⟩, rfl⟩
  · obtain rfl : name? = some plainBase := Except.ok.inj (hname'.symm.trans hplain)
    obtain ⟨hconserved, hcalls⟩ := conserved_of_reparented hbase hmoved
    exact ⟨h.trans hconserved, fun _ => exists_superName?_of_className hmoved.superClass,
      fun hnot => absurd hname hnot, fun _ => ⟨hmoved.superClass, hcalls⟩⟩
  · refine ⟨h, fun _ => ⟨name?, hname'⟩, fun _ => hsuper, fun hplain => ?_⟩
    have hsame := Except.ok.inj (hother.symm.trans (superName?_mono h.pool hsuper hplain))
    exact absurd hsame hne

/-- A reworked unit may get other attributes. -/
theorem Reworked.withAttributes (h : Reworked base u v) (hpool : v.pool.Extends t.pool)
    (heq : t = { v with pool := t.pool, attributes := t.attributes }) : Reworked base u t := by
  have hsuper : t.superClass = v.superClass := by rw [heq]
  have hmethods : t.methods = v.methods := by rw [heq]
  have hconserved : v.Conserved t := by
    refine .of_retouched hpool ?_ (by rw [heq])
    rw [hmethods]
    exact List.forall₂_same.2 fun m _ => .refl m
  refine ⟨h.toConserved.trans hconserved, fun hname => ?_, fun hne => ?_, fun hplain => ?_⟩
  · obtain ⟨name?, hname⟩ := h.named hname
    exact ⟨name?, superName?_mono hpool hsuper hname⟩
  · rw [hsuper, h.superClass hne]
  · obtain ⟨hclass, hcalls⟩ := h.rebased hplain
    rw [hsuper, hmethods]
    exact ⟨hpool.className hclass, fun m hm => (hcalls m hm).mono hpool⟩

end ClassFile

theorem Edit.attributes_of_reparented {old new : String} {u v t : ClassFile}
    (h : v.attributes = u.attributes)
    (hmoved : v.superName? = .ok (some old) ∧ Reparented old new v t ∨
      (∃ name?, v.superName? = .ok name? ∧ name? ≠ some old) ∧ t = v) :
    t.attributes = u.attributes ∧ t.fields = v.fields := by
  rcases hmoved with ⟨-, hreparented⟩ | ⟨-, rfl⟩
  · rw [hreparented.rest]
    exact ⟨h, rfl⟩
  · exact ⟨h, rfl⟩

/-- **What pooling leaves alone.** -/
theorem Pooled.Applied.reworked {owner : String} {u t : ClassFile} (h : Applied owner u t)
    (hname : ∃ name?, u.superName? = .ok name?) :
    ClassFile.Reworked pooledBase u t ∧ t.attributes = u.attributes ∧ t.fields = u.fields := by
  obtain ⟨v, ⟨_, -, hreset⟩, hmoved⟩ := h.stages
  obtain ⟨hconserved, hsuper, hattributes, hfields⟩ : u.Conserved v ∧
      v.superClass = u.superClass ∧ v.attributes = u.attributes ∧ v.fields = u.fields := by
    rcases hreset with ⟨-, rfl⟩ | ⟨-, targets, -, -, hgained⟩
    · exact ⟨.refl _, rfl, rfl, rfl⟩
    · refine ⟨.of_gained hgained (by simp) fun d hd => ?_, ?_⟩
      · obtain rfl := List.mem_singleton.1 hd
        exact (by decide : Access.protectedFlag.has Access.publicFlag = false)
      · obtain ⟨_, fields, methods, hfields, -, heq⟩ := hgained
        cases hfields
        rw [heq]
        exact ⟨rfl, rfl, List.append_nil _⟩
  obtain ⟨hattributes', hfields'⟩ := Edit.attributes_of_reparented hattributes hmoved
  exact ⟨hconserved.reworked hsuper (by decide) hmoved hname, hattributes', hfields'.trans hfields⟩

section

variable {index : TypeIndex} {owner : String} {layout : PackedLayout} {u t : ClassFile}

/-- Before the superclass is replaced, packing conserves a unit. -/
theorem Packed.Applied.exists_conserved (h : Applied index owner layout u t) : ∃ v,
    u.Conserved v ∧ v.superClass = u.superClass ∧ v.attributes = u.attributes ∧
      (v.superName? = .ok (some plainBase) ∧ Edit.Reparented plainBase packedBase v t ∨
        (∃ name?, v.superName? = .ok name? ∧ name? ≠ some plainBase) ∧ t = v) := by
  obtain ⟨u₁, u₂, u₃, u₄, hrewritten, hshared, ⟨init?, -, -, hinit⟩, hmethods, hmoved⟩ := h.stages
  -- one stage after the other
  have h₁ : u.Conserved u₁ := by
    refine .of_retouched hrewritten.pool
      (hrewritten.methods.imp fun _ _ hm =>
        (Edit.retouched_of_rewritten (exchanges_accesses owner layout u.pool) hm).1) ?_
    rw [hrewritten.rest]
  have h₂ : u₁.Conserved u₂ := (ClassFile.Conserved.of_filtered u₁).trans
    (.of_gained hshared (fun d hd => parse_of_mem_sharedFields hd) (by simp))
  have h₃ : u₂.Conserved u₃ := by
    refine .of_gained hinit (by simp) fun d hd => ?_
    split_ifs at hd
    · obtain rfl := List.mem_singleton.1 hd
      exact (by decide : Access.staticFlag.has Access.publicFlag = false)
    · cases hd
  have h₄ : u₃.Conserved u₄ := by
    refine .of_gained hmethods (fun d hd => h.parse_of_mem_flyweightFields hd) fun d hd => ?_
    have hhidden : accessorAccess.has Access.publicFlag = false := by decide
    rcases List.mem_cons.1 hd with rfl | hd
    · exact (by decide : Access.has (Access.privateFlag ||| Access.staticFlag |||
        Access.syntheticFlag) Access.publicFlag = false)
    · obtain ⟨f, -, hd⟩ := List.mem_flatMap.1 hd
      simp only [List.mem_cons, List.not_mem_nil, or_false] at hd
      rcases hd with rfl | rfl <;> exact hhidden
  obtain ⟨hsuper, hattributes⟩ : u₄.superClass = u.superClass ∧ u₄.attributes = u.attributes := by
    obtain ⟨_, _, -, -, heq₂⟩ := hshared.members
    obtain ⟨_, _, -, -, heq₃⟩ := hinit.members
    obtain ⟨_, _, -, -, heq₄⟩ := hmethods.members
    rw [heq₄, heq₃, heq₂, hrewritten.rest]
    exact ⟨rfl, rfl⟩
  exact ⟨u₄, ((h₁.trans h₂).trans h₃).trans h₄, hsuper, hattributes, hmoved⟩

theorem Packed.Applied.conserved (h : Applied index owner layout u t) : u.Conserved t := by
  obtain ⟨v, hconserved, -, -, ⟨-, hmoved⟩ | ⟨-, rfl⟩⟩ := h.exists_conserved
  · exact hconserved.trans (ClassFile.conserved_of_reparented (by decide) hmoved).1
  · exact hconserved

/-- **What packing leaves alone.** -/
theorem Packed.Applied.reworked (h : Applied index owner layout u t)
    (hname : ∃ name?, u.superName? = .ok name?) :
    ClassFile.Reworked packedBase u t ∧ t.attributes = u.attributes := by
  obtain ⟨v, hconserved, hsuper, hattributes, hmoved⟩ := h.exists_conserved
  exact ⟨hconserved.reworked hsuper (by decide) hmoved hname,
    (Edit.attributes_of_reparented hattributes hmoved).1⟩

end

end ClassWeave
