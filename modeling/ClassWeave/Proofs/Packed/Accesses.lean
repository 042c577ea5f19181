import ClassWeave.Proofs.Weaving.Conserved
import ClassWeave.Proofs.Weaving.Transform

/-!
# Field accesses of packed units

Every access to a field of the layout becomes a call of an accessor, which is looked up by the name
of the field alone.

* `Member.SitesRelated` : methods whose member instructions are related one by one.
* `ClassFile.instanceField?`, `Packed.field?_of_view` : the first instance field of a name, and
  where the layout has it.
* `Packed.Becomes`, `Packed.Applied.becomes` : what packing makes of a member instruction.
* `Packed.accesses_of_apply` : no access to a removed field is left, and every new call has its
  accessor.
* `Packed.typed_of_weave` : when an accessor has the type of the access that it replaces.
-/

namespace ClassWeave

open Instruction (Site Related siteAt)

/-! ### Methods -/

namespace Member

variable {R S : Site → Site → Prop} {m m₁ m' : Member}

/-- The member instructions in the first bodies of two methods are related one by one. -/
def SitesRelated (R : Site → Site → Prop) (m m' : Member) : Prop :=
  ∀ body, m.code? = some body → ∃ body', m'.code? = some body' ∧
    Related R body.instructions body'.instructions

theorem SitesRelated.comp (h : SitesRelated R m m₁) (h' : SitesRelated S m₁ m') :
    SitesRelated (Relation.Comp R S) m m' := by
  intro body hbody
  obtain ⟨body₁, hbody₁, hrelated⟩ := h body hbody
  obtain ⟨body', hbody', hrelated'⟩ := h' body₁ hbody₁
  exact ⟨body', hbody', hrelated.comp hrelated'⟩

theorem SitesRelated.imp (hRS : ∀ s s', R s s' → S s s') (h : SitesRelated R m m') :
    SitesRelated S m m' := by
  intro body hbody
  obtain ⟨body', hbody', hrelated⟩ := h body hbody
  exact ⟨body', hbody', hrelated.imp hRS⟩

end Member

namespace Edit

variable {m m' : Member} {p q : ConstantPool}

/-- Rewriting turns the member instructions of a method one by one. -/
theorem sitesRelated_of_rewritten {choose : Member → Site → Except Malformation Bool}
    {redirect : Site → Interning Site} (hexchanges : Exchanges choose redirect)
    (h : Rewritten choose redirect p q m m') :
    m.SitesRelated (Turned (choose m) redirect p q) m' := by
  obtain ⟨⟨edit, rfl, hedit⟩, hsites⟩ := retouched_of_rewritten hexchanges h
  intro body hbody
  obtain ⟨body', sites, sites', hbody', hsites, hsites', hall⟩ := hsites body hbody
  refine ⟨body', hbody', Instruction.related_of_forall₂ hsites hsites' ?_
    (fun _ _ => hexchanges.offset_of_turned) hall⟩
  rw [Member.code?_editCode, hbody, Option.map_some] at hbody'
  obtain rfl := Option.some.inj hbody'
  exact (hedit body hbody).offsets

end Edit

/-! ### Instance fields -/

namespace ClassFile

/-- The first instance field of a name. -/
def instanceField? (u : ClassFile) (name : String) : Option Member :=
  u.fields.find? fun f => f.isInstance && f.nameIn u.pool = .ok name

end ClassFile

namespace Packed

variable {index : TypeIndex} {owner name : String} {layout : PackedLayout} {u t : ClassFile}
  {m m' : Member} {p q : ConstantPool} {s s' : Site}

/-- The layout has a field of a name just when the unit has an instance field of that name, and with
the type of the first one. -/
theorem field?_of_view {view : List Field} (hview : u.fieldsView = .ok view) (name : String) :
    Option.Rel (fun m f => f.name = name ∧ m.descriptorIn u.pool = .ok f.kind.descriptor)
      (u.instanceField? name) ((PackedLayout.ofFields view).field? name) := by
  suffices hplace : ∀ {ms : List Member} {gs : List Field} (offset : Nat),
      List.Forall₂ (fun m g => ClassFile.viewOf u.pool m = .ok g) ms gs →
      Option.Rel (fun m f => f.name = name ∧ m.descriptorIn u.pool = .ok f.kind.descriptor)
        (ms.find? fun m => m.isInstance && m.nameIn u.pool = .ok name)
        ((PackedLayout.place offset (gs.filter (!·.isStatic))).find? (·.name == name)) by
    exact hplace 0 (except_mapM_eq_ok.1 hview)
  intro ms gs offset h
  induction h generalizing offset with
  | nil => exact .none
  | @cons m g ms gs hm _ ih =>
    obtain ⟨text, descriptor, kind, htext, hdescriptor, hkind, rfl⟩ := ClassFile.viewOf_eq_ok.1 hm
    cases hinstance : m.isInstance with
    | false => simpa [hinstance] using ih offset
    | true =>
      by_cases hname : text = name
      · subst hname
        rw [List.find?_cons_of_pos (by simp [hinstance, htext])]
        simp only [Bool.not_true, Bool.not_false, List.filter_cons_of_pos, PackedLayout.place,
          List.find?_cons_of_pos, beq_self_eq_true]
        refine .some ⟨rfl, ?_⟩
        rw [ValueKind.descriptor_of_parse hkind]
        exact hdescriptor
      · rw [List.find?_cons_of_neg (by simp [hinstance, htext, hname])]
        simp only [Bool.not_true, Bool.not_false, List.filter_cons_of_pos, PackedLayout.place]
        rw [List.find?_cons_of_neg (by simpa using hname)]
        exact ih _

theorem instanceField?_eq_none {view : List Field} (hview : u.fieldsView = .ok view)
    (h : (PackedLayout.ofFields view).field? name = none) : u.instanceField? name = none := by
  have hfield := field?_of_view hview name
  rw [h] at hfield
  cases hinstance : u.instanceField? name with
  | none => rfl
  | some m =>
    rw [hinstance] at hfield
    cases hfield

/-! ### Field accesses -/

/-- The opcode reads or writes a field of an object. -/
def IsFieldAccess (opcode : UInt8) : Prop :=
  opcode = Opcode.getField ∨ opcode = Opcode.putField

theorem not_isFieldAccess_invokeSpecial : ¬ IsFieldAccess Opcode.invokeSpecial := by
  unfold IsFieldAccess
  decide

theorem accessesLayout_true (h : accessesLayout owner layout p m s = .ok true) :
    IsFieldAccess s.opcode ∧ ∃ target f, p.memberRef s.operand = .ok target ∧
      target.owner = owner ∧ layout.field? target.name = some f := by
  unfold accessesLayout at h
  split_ifs at h with hother
  · cases h
  obtain ⟨target, htarget, h⟩ := except_bind_eq_ok.1 h
  have hboth := except_pure_eq_ok.1 h
  simp only [Bool.true_eq, Bool.and_eq_true, decide_eq_true_eq] at hboth
  obtain ⟨f, hf⟩ := Option.isSome_iff_exists.1 hboth.2
  exact ⟨by unfold IsFieldAccess; tauto, target, f, htarget, hboth.1, hf⟩

theorem accessesLayout_false (h : accessesLayout owner layout p m s = .ok false)
    (hopcode : IsFieldAccess s.opcode) : ∃ target, p.memberRef s.operand = .ok target ∧
      (target.owner = owner → layout.field? target.name = none) := by
  unfold accessesLayout at h
  rw [if_neg (by unfold IsFieldAccess at hopcode; tauto)] at h
  obtain ⟨target, htarget, h⟩ := except_bind_eq_ok.1 h
  have hboth := except_pure_eq_ok.1 h
  refine ⟨target, htarget, fun howner => ?_⟩
  simpa [howner] using hboth

/-- What packing makes of a member instruction while the pool grows from `p` to `q`. -/
inductive Becomes (owner : String) (layout : PackedLayout) (p q : ConstantPool) (s s' : Site) :
    Prop
  /-- An access to a field of the layout becomes a call of an accessor. -/
  | accessor (target : MemberRef) (f : PackedField) : IsFieldAccess s.opcode →
      p.memberRef s.operand = .ok target → target.owner = owner →
      layout.field? target.name = some f → s'.opcode = Opcode.invokeSpecial →
      q.methodAt? s'.operand = some (accessorRef owner s.opcode f) → Becomes owner layout p q s s'
  /-- Other accesses stay, and so do most calls. -/
  | same : s' = s → (IsFieldAccess s.opcode → ∃ target, p.memberRef s.operand = .ok target ∧
      (target.owner = owner → layout.field? target.name = none)) → Becomes owner layout p q s s'
  /-- The call of a constructor goes to another class. -/
  | constructor : s.opcode = Opcode.invokeSpecial → s'.opcode = Opcode.invokeSpecial →
      Becomes owner layout p q s s'

theorem Becomes.mono {r : ConstantPool} (hqr : q.Extends r) (h : Becomes owner layout p q s s') :
    Becomes owner layout p r s s' := by
  cases h with
  | accessor target f hopcode htarget howner hf hopcode' hmethod =>
    exact .accessor target f hopcode htarget howner hf hopcode' (hqr.refAt? hmethod)
  | same heq hother => exact .same heq hother
  | constructor hopcode hopcode' => exact .constructor hopcode hopcode'

/-- Putting accessor calls in place makes this of a member instruction. -/
theorem becomes_of_turned (h : Edit.Turned (accessesLayout owner layout p m)
    (redirectAccess owner layout p) p q s s') : Becomes owner layout p q s s' := by
  rcases h with ⟨hfalse, rfl⟩ | ⟨htrue, a, b, -, hgives, hbq⟩
  · exact .same rfl (accessesLayout_false hfalse)
  · obtain ⟨hopcode, target, -, htarget, howner, -⟩ := accessesLayout_true htrue
    obtain ⟨-, -, hopcode', target', f, htarget', hf, hmethod⟩ := gives_redirectAccess hgives
    obtain rfl := Except.ok.inj (htarget.symm.trans htarget')
    exact .accessor target f hopcode htarget howner hf hopcode' (hbq.refAt? hmethod)

/-- No accessor is a constructor. -/
theorem accessorRef_name_ne (opcode : UInt8) (f : PackedField) :
    (accessorRef owner opcode f).name ≠ "<init>" := by
  unfold accessorRef
  split
  · exact getterName_ne_init f.name
  · exact setterName_ne_init f.name

/-- Moving to another superclass leaves accessor calls alone. -/
theorem Becomes.reparented {r : ConstantPool} {s'' : Site} (hqr : q.Extends r)
    (h : Becomes owner layout p q s s')
    (h' : Edit.Turned (Edit.callsConstructorOf plainBase q m)
      (Edit.redirectConstructor packedBase q) q r s' s'') : Becomes owner layout p r s s'' := by
  rcases h' with ⟨-, rfl⟩ | ⟨htrue, a, b, -, hgives, hbr⟩
  · exact h.mono hqr
  obtain ⟨hcall, -, target, htarget, -, hinit⟩ := Edit.callsConstructorOf_eq_true.1 htrue
  obtain ⟨-, -, hopcode, -⟩ := Edit.gives_redirectConstructor hgives
  cases h with
  | accessor _ f _ _ _ _ _ hmethod =>
    have hmember := ConstantPool.memberRef_of_refAt? (.inr rfl) hmethod
    have hsame := Except.ok.inj (htarget.symm.trans hmember)
    exact absurd (hsame ▸ hinit) (accessorRef_name_ne s.opcode f)
  | same heq _ =>
    subst heq
    exact .constructor hcall (hopcode.trans hcall)
  | constructor hbefore _ => exact .constructor hbefore (hopcode.trans hcall)

/-- Until the superclass is replaced, methods come behind those of the rewritten unit, and none of
them is a constructor. -/
theorem methods_of_stages {u₁ u₂ u₃ u₄ : ClassFile}
    (hrewritten : AccessesRewritten owner layout u u₁)
    (hshared : ClassFile.Gained (sharedFields layout) []
      { u₁ with fields := u₁.fields.filter (!·.isInstance) } u₂)
    (hinit : InitGained owner layout u₂ u₃)
    (hmethods : u₃.Gained (layout.fields.flatMap flyweightFields)
      (capacityDesign owner layout :: accessorDesigns owner layout) u₄) :
    u₁.pool.Extends u₄.pool ∧ u₄.superClass = u.superClass ∧
      ∃ new, u₄.methods = u₁.methods ++ new ∧
        ∀ m ∈ new, ∃ d framed, d.name ≠ "<init>" ∧ MethodDesign.Realized framed u₄.pool d m := by
  obtain ⟨init?, -, -, hinit⟩ := hinit
  obtain ⟨_, _, -, ⟨⟩, hu₂⟩ := hshared.members
  obtain ⟨_, new₃, -, hnew₃, hu₃⟩ := hinit.members
  obtain ⟨_, new₄, -, hnew₄, hu₄⟩ := hmethods.members
  refine ⟨hshared.pool.trans (hinit.pool.trans hmethods.pool), ?_, new₃ ++ new₄, ?_, fun m hm => ?_⟩
  · rw [hu₄, hu₃, hu₂, hrewritten.rest]
  · rw [hu₄, hu₃, hu₂]
    simp only [List.append_nil, List.append_assoc]
  · have hsub : (if init?.isNone then [staticInitDesign owner layout] else []) ⊆
        [staticInitDesign owner layout] := by
      split_ifs <;> simp
    rcases List.mem_append.1 hm with hm | hm
    · obtain ⟨d, hd, hrealized⟩ := exists_of_mem_right hnew₃ hm
      exact ⟨d, _, name_ne_of_mem hsub (List.mem_append_left _ hd), hrealized.mono hmethods.pool⟩
    · obtain ⟨d, hd, hrealized⟩ := exists_of_mem_right hnew₄ hm
      exact ⟨d, _, name_ne_of_mem hsub (List.mem_append_right _ hd), hrealized⟩

/-- Before the superclass is replaced, the methods that the unit had are rewritten once, and others
come behind them. -/
theorem Applied.exists_rewritten (h : Applied index owner layout u t) : ∃ u₁ v new,
    AccessesRewritten owner layout u u₁ ∧ u₁.pool.Extends v.pool ∧ v.methods = u₁.methods ++ new ∧
      v.superClass = u.superClass ∧
      (v.superName? = .ok (some plainBase) ∧ Edit.Reparented plainBase packedBase v t ∨
        (∃ name?, v.superName? = .ok name? ∧ name? ≠ some plainBase) ∧ t = v) := by
  obtain ⟨u₁, u₂, u₃, u₄, hrewritten, hshared, hinit, hmethods, hmoved⟩ := h.stages
  obtain ⟨hpool, hsuper, new, hnew, -⟩ := methods_of_stages hrewritten hshared hinit hmethods
  exact ⟨u₁, u₄, new, hrewritten, hpool, hnew, hsuper, hmoved⟩

/-- The methods that the unit had were rewritten twice. -/
theorem Applied.rewritten (h : Applied index owner layout u t) : ∃ u₁ p,
    AccessesRewritten owner layout u u₁ ∧ u₁.pool.Extends p ∧ p.Extends t.pool ∧
      List.Forall₂ (fun m m' => m' = m ∨ Edit.Rewritten (Edit.callsConstructorOf plainBase p)
        (Edit.redirectConstructor packedBase p) p t.pool m m')
        u₁.methods (t.methods.take u.methods.length) := by
  obtain ⟨u₁, v, new, hrewritten, hpool, hold, -, hmoved⟩ := h.exists_rewritten
  have htake : v.methods.take u.methods.length = u₁.methods := by
    rw [hold, hrewritten.methods.length_eq, List.take_left]
  rcases hmoved with ⟨-, hreparented⟩ | ⟨-, rfl⟩
  · obtain ⟨p, hp, hq, hms⟩ := hreparented.methods
    have hfront := List.forall₂_take u.methods.length hms
    rw [htake] at hfront
    exact ⟨u₁, p, hrewritten, hpool.trans hp, hq, hfront.imp fun _ _ => .inr⟩
  · rw [htake]
    exact ⟨u₁, t.pool, hrewritten, hpool, .refl _, List.forall₂_same.2 fun _ _ => .inl rfl⟩

/-- **What packing makes of the member instructions** of the methods that a unit had. -/
theorem Applied.becomes (h : Applied index owner layout u t) :
    List.Forall₂ (Member.SitesRelated (Becomes owner layout u.pool t.pool)) u.methods
      (t.methods.take u.methods.length) := by
  obtain ⟨u₁, p, hrewritten, hp, hq, hmethods⟩ := h.rewritten
  refine forall₂_trans (fun m m₁ m' hm hm' => ?_) hrewritten.methods hmethods
  have hfirst : m.SitesRelated (Becomes owner layout u.pool u₁.pool) m₁ :=
    (Edit.sitesRelated_of_rewritten (exchanges_accesses owner layout u.pool) hm).imp
      fun _ _ => becomes_of_turned
  rcases hm' with rfl | hm'
  · exact hfirst.imp fun _ _ hs => hs.mono (hp.trans hq)
  · refine (hfirst.comp (Edit.sitesRelated_of_rewritten
      (Edit.exchanges_constructors plainBase packedBase p p) hm')).imp ?_
    rintro s s'' ⟨s', hs, hs'⟩
    exact (hs.mono hp).reparented hq hs'

/-! ### No access is left dangling -/

/-- The instruction calls a method that the unit `t` has gained behind its first `count` methods:
there is one with the name and the descriptor that it refers to, which is private, not static and
has a body. -/
structure CallsGained (owner : String) (count : Nat) (t : ClassFile) (s : Site) : Prop where
  /-- It calls a method of the class itself. -/
  opcode : s.opcode = Opcode.invokeSpecial
  /-- The method is among the new ones. -/
  target : ∃ target, t.pool.methodAt? s.operand = some target ∧ target.owner = owner ∧
    ∃ m ∈ t.methods.drop count, m.nameIn t.pool = .ok target.name ∧
      m.descriptorIn t.pool = .ok target.descriptor ∧ m.access.has Access.privateFlag = true ∧
      m.access.has Access.staticFlag = false ∧ ∃ body, m.code? = some body

/-- What packing `u` makes of a field access at an offset where an instruction starts. -/
structure AccessMoved (owner : String) (u t : ClassFile) (code code' : Bytes) (k : Nat) : Prop where
  /-- An access that is there now refers to a member of another class, or by a name that no removed
  instance field has. -/
  kept : ∀ opcode, code'[k]? = some opcode → IsFieldAccess opcode → ∃ s target,
    siteAt code' k = some s ∧ s.opcode = opcode ∧ t.pool.memberRef s.operand = .ok target ∧
      (target.owner = owner → u.instanceField? target.name = none)
  /-- An access that is not there any more has become a call of a new method. -/
  replaced : ∀ s, siteAt code k = some s → IsFieldAccess s.opcode → siteAt code' k ≠ some s →
    ∃ s', siteAt code' k = some s' ∧ CallsGained owner u.methods.length t s'

/-- Accessors are there for every field of the layout. -/
theorem Applied.callsGained (h : Applied index owner layout u t) {f : PackedField}
    (hf : f ∈ layout.fields) {opcode : UInt8} (hopcode : s.opcode = Opcode.invokeSpecial)
    (hmethod : t.pool.methodAt? s.operand = some (accessorRef owner opcode f)) :
    CallsGained owner u.methods.length t s := by
  obtain ⟨inits, -, hmethods⟩ := h.methods
  have hmem (d : MethodDesign)
      (hd : d ∈ [getterDesign owner layout f, setterDesign owner layout f]) :
      ∃ m ∈ t.methods.drop u.methods.length, d.Realized u.needsFrames t.pool m :=
    exists_of_mem_left hmethods (List.mem_append_right _
      (List.mem_cons_of_mem _ (List.mem_flatMap.2 ⟨f, hf, hd⟩)))
  obtain ⟨d, hd, hname, hdescriptor, haccess, howner⟩ : ∃ d,
      d ∈ [getterDesign owner layout f, setterDesign owner layout f] ∧
      d.name = (accessorRef owner opcode f).name ∧
      d.descriptor = (accessorRef owner opcode f).descriptor ∧ d.access = accessorAccess ∧
      (accessorRef owner opcode f).owner = owner := by
    unfold accessorRef
    split
    · exact ⟨_, List.mem_cons_self, rfl, rfl, rfl, rfl⟩
    · exact ⟨_, List.mem_cons_of_mem _ List.mem_cons_self, rfl, rfl, rfl, rfl⟩
  obtain ⟨m, hm, hrealized⟩ := hmem d hd
  have hflags := hrealized.access.trans haccess
  obtain ⟨_, body, htable, -⟩ := hrealized.body
  refine ⟨hopcode, _, hmethod, howner, m, hm, hname ▸ hrealized.name,
    hdescriptor ▸ hrealized.descriptor, ?_, ?_, body, ?_⟩
  · rw [hflags]
    decide
  · rw [hflags]
    decide
  · rw [Member.code?, htable]
    rfl

/-- **Packing leaves no access to a removed field.**  In the methods that the unit had, no
instruction accesses a field of the class by the name of a removed instance field, and every access
that was replaced is the call of a method that packing has appended. -/
theorem accesses_of_apply (h : Gives (apply index) u layout t) : ∃ owner, u.name = .ok owner ∧
    t.name = .ok owner ∧ List.Forall₂ (fun m m' => ∀ body, m.code? = some body → ∃ body' starts,
      m'.code? = some body' ∧ Instruction.offsets body.instructions = .ok starts ∧
      Instruction.offsets body'.instructions = .ok starts ∧ ∀ k ∈ starts,
        AccessMoved owner u t body.instructions body'.instructions k)
      u.methods (t.methods.take u.methods.length) := by
  obtain ⟨owner, happlied⟩ := gives_apply h
  have hconserved := happlied.conserved
  obtain ⟨view, hview, hlayout⟩ := happlied.view
  refine ⟨owner, happlied.name, ?_, happlied.becomes.imp fun m m' hm body hbody => ?_⟩
  · unfold ClassFile.name
    rw [hconserved.thisClass]
    exact hconserved.pool.className happlied.name
  obtain ⟨body', hbody', starts, hstarts, hstarts', hall⟩ := hm body hbody
  refine ⟨body', starts, hbody', hstarts, hstarts', fun k hk => ⟨?_, ?_⟩⟩
  · intro opcode hopcode haccess
    have hmember : Instruction.isMemberOpcode opcode = true := by
      rcases haccess with rfl | rfl <;> decide
    obtain ⟨s', hs', rfl⟩ := Instruction.exists_siteAt hstarts' hk hopcode hmember
    obtain ⟨s, -, hbecomes⟩ := Instruction.exists_of_rel_some_right (hs' ▸ hall k hk)
    cases hbecomes with
    | accessor _ _ _ _ _ _ hopcode' | constructor _ hopcode' =>
      exact absurd (hopcode' ▸ haccess) not_isFieldAccess_invokeSpecial
    | same heq hother =>
      subst heq
      obtain ⟨target, htarget, hnone⟩ := hother haccess
      exact ⟨s', target, hs', rfl, hconserved.pool.memberRef htarget, fun howner =>
        instanceField?_eq_none hview (hlayout ▸ hnone howner)⟩
  · intro s hs haccess hne
    obtain ⟨s', hs', hbecomes⟩ := Instruction.exists_of_rel_some_left (hs ▸ hall k hk)
    refine ⟨s', hs', ?_⟩
    cases hbecomes with
    | accessor target f _ _ _ hf hopcode' hmethod =>
      exact happlied.callsGained (List.mem_of_find?_eq_some hf) hopcode' hmethod
    | same heq => exact absurd (heq ▸ hs') hne
    | constructor hopcode =>
      exact absurd (hopcode ▸ haccess) not_isFieldAccess_invokeSpecial

/-- A unit with an instance field, and a method that reads a field of that name but of another
type. -/
def mistyped : ClassFile :=
  { minor := 0, major := 52,
    pool := ⟨#[none, some (.utf8 "A"), some (.classInfo 1), some (.utf8 "java/lang/Object"),
      some (.classInfo 3), some (.utf8 "RuntimeInvisibleAnnotations"),
      some (.utf8 "Lcom/artemis/annotations/PackedWeaver;"), some (.utf8 "x"), some (.utf8 "I"),
      some (.utf8 "F"), some (.nameAndType 7 9), some (.fieldRef 2 10), some (.utf8 "Code"),
      some (.utf8 "get"), some (.utf8 "()F")]⟩,
    access := 0x21, thisClass := 2, superClass := 4, interfaces := [],
    fields := [{ access := 0, name := 7, descriptor := 8, attributes := [] }],
    methods := [{ access := 1, name := 13, descriptor := 14,
                  attributes := [.code 12 ⟨1, 1, [0x2a, 0xb4, 0, 11, 0xae], [], []⟩] }],
    attributes := [.annotations 5 [{ type := 6, elements := [] }]] }

theorem weave_mistyped :
    ∃ r, mistyped.weave .empty {} = .ok (some r) ∧ r.strategy = .packed := by
  have hresult : Option.map Woven.strategy <$> mistyped.weave .empty {} = .ok (some .packed) := by
    decide +kernel
  exact except_map_some_eq_ok.1 hresult

/-- The access in that method is replaced. -/
theorem accesses_of_apply_mistyped : ∃ layout t, Gives (apply .empty) mistyped layout t ∧
    ∃ m body s, t.methods.head? = some m ∧ m.code? = some body ∧
      siteAt body.instructions 1 = some s ∧ CallsGained "A" 1 t s := by
  have hname' : mistyped.name = .ok "A" := by decide +kernel
  obtain ⟨_, hweave, hpacked⟩ := weave_mistyped
  obtain ⟨layout, t, happly⟩ := ClassFile.exists_gives_of_weave hweave hpacked
  obtain ⟨owner, hname, -, hmethods⟩ := accesses_of_apply happly
  obtain rfl : "A" = owner := Except.ok.inj (hname'.symm.trans hname)
  obtain ⟨m, _, hm, -, hfront⟩ := List.forall₂_cons_left_iff.1 hmethods
  have hhead : t.methods.head? = some m := by
    rw [← List.head?_cons (a := m), ← hfront, List.head?_take, if_neg (by decide)]
  obtain ⟨body, starts, hbody, hstarts, -, hall⟩ := hm _ rfl
  obtain rfl : [0, 1, 4] = starts :=
    Except.ok.inj ((by decide +kernel : _ = .ok [0, 1, 4]).symm.trans hstarts)
  have hmoved := hall 1 (by decide)
  have hsite : siteAt [0x2a, 0xb4, 0, 11, 0xae] 1 = some ⟨1, 0xb4, 11⟩ := by decide +kernel
  -- the access cannot stay, as it has the name of a removed field
  have hne : siteAt body.instructions 1 ≠ some ⟨1, 0xb4, 11⟩ := by
    intro hstays
    obtain ⟨s, target, hs, -, htarget, hnone⟩ :=
      hmoved.kept _ (Instruction.siteAt_eq_some hstays).2 (.inl rfl)
    obtain rfl := Option.some.inj (hstays.symm.trans hs)
    obtain ⟨_, happlied⟩ := gives_apply happly
    have hbefore : mistyped.pool.memberRef 11 = .ok ⟨"A", "x", "F"⟩ := by decide +kernel
    obtain rfl := Except.ok.inj ((happlied.conserved.pool.memberRef hbefore).symm.trans htarget)
    exact absurd (hnone rfl) (by decide +kernel)
  obtain ⟨s, hs, hcalls⟩ := hmoved.replaced _ hsite (.inl rfl) hne
  exact ⟨layout, t, happly, m, body, s, hhead, hbody, hs, hcalls⟩

/-! ### The types of accesses -/

/-- The descriptor of the accessor for an access to a field with the descriptor. -/
def accessorDescriptor (opcode : UInt8) (descriptor : String) : String :=
  if opcode = Opcode.getField then "()" ++ descriptor else "(" ++ descriptor ++ ")V"

theorem accessorDescriptor_inj {opcode : UInt8} {d d' : String} :
    accessorDescriptor opcode d = accessorDescriptor opcode d' ↔ d = d' := by
  refine ⟨fun h => ?_, congrArg _⟩
  unfold accessorDescriptor at h
  split at h
  all_goals
    have hlist := congrArg String.toList h
    simpa [String.toList_append, String.toList_inj] using hlist

theorem accessorRef_descriptor (opcode : UInt8) (f : PackedField) :
    (accessorRef owner opcode f).descriptor = accessorDescriptor opcode f.kind.descriptor := by
  unfold accessorRef accessorDescriptor
  split <;> rfl

/-- What becomes of a field access of the unit `u` in the packed unit `t`. -/
inductive AccessTyped (owner : String) (u t : ClassFile) (s s' : Site) : Prop
  /-- An access by the name of an instance field of the class becomes the call of an accessor for
  the first field of that name.  The accessor has the type of the access just when that field has
  it. -/
  | replaced (target called : MemberRef) (m : Member) (descriptor : String) :
      u.pool.memberRef s.operand = .ok target → target.owner = owner →
      u.instanceField? target.name = some m → m.descriptorIn u.pool = .ok descriptor →
      s'.opcode = Opcode.invokeSpecial → t.pool.methodAt? s'.operand = some called →
      called.owner = owner → called.descriptor = accessorDescriptor s.opcode descriptor →
      (called.descriptor = accessorDescriptor s.opcode target.descriptor ↔
        descriptor = target.descriptor) → AccessTyped owner u t s s'
  /-- Any other access stays. -/
  | kept (target : MemberRef) : u.pool.memberRef s.operand = .ok target → s' = s →
      (target.owner = owner → u.instanceField? target.name = none) → AccessTyped owner u t s s'

/-- **The types of accessor calls.**  In a packed unit every access to an instance field of the
class has become the call of an accessor, and this has the type of the access just when the first
instance field of that name has it. -/
theorem typed_of_weave {settings : Settings} {r : Woven}
    (h : u.weave index settings = .ok (some r)) (hpacked : r.strategy = .packed) :
    List.Forall₂ (Member.SitesRelated fun s s' =>
      IsFieldAccess s.opcode → AccessTyped r.name u r.unit s s')
      u.methods (r.unit.methods.take u.methods.length) := by
  obtain ⟨layout, v, -, happlied, hpool, heq⟩ := ClassFile.applied_of_weave h hpacked
  obtain ⟨view, hview, hlayout⟩ := happlied.view
  have hmethods : r.unit.methods = v.methods := by rw [heq]
  rw [hmethods]
  refine happlied.becomes.imp fun m m' hm => hm.imp fun s s' hs haccess => ?_
  cases hs.mono hpool with
  | accessor target f _ htarget howner hf hopcode' hmethod =>
    have hfield := field?_of_view hview target.name
    rw [← hlayout, hf] at hfield
    obtain ⟨m, hinstance, -, hdescriptor⟩ := Instruction.exists_of_rel_some_right hfield
    have hcalled : (accessorRef r.name s.opcode f).descriptor =
        accessorDescriptor s.opcode f.kind.descriptor := accessorRef_descriptor s.opcode f
    refine .replaced target _ m f.kind.descriptor htarget howner hinstance hdescriptor hopcode'
      hmethod ?_ hcalled ?_
    · unfold accessorRef
      split <;> rfl
    · rw [hcalled]
      exact accessorDescriptor_inj
  | same heq hother =>
    obtain ⟨target, htarget, hnone⟩ := hother haccess
    exact .kept target htarget heq fun howner =>
      instanceField?_eq_none hview (hlayout ▸ hnone howner)
  | constructor hopcode => exact absurd (hopcode ▸ haccess) not_isFieldAccess_invokeSpecial

/-- An accessor for an integer takes the place of an access to a number of another type. -/
theorem typed_of_weave_mistyped : ∃ r, mistyped.weave .empty {} = .ok (some r) ∧
    r.strategy = .packed ∧ ∃ m body s called, r.unit.methods.head? = some m ∧
      m.code? = some body ∧ siteAt body.instructions 1 = some s ∧
      mistyped.pool.memberRef 11 = .ok ⟨"A", "x", "F"⟩ ∧
      r.unit.pool.methodAt? s.operand = some called ∧ called.descriptor = "()I" := by
  obtain ⟨r, hweave, hpacked⟩ := weave_mistyped
  obtain ⟨m, _, hm, -, hfront⟩ := List.forall₂_cons_left_iff.1 (typed_of_weave hweave hpacked)
  have hhead : r.unit.methods.head? = some m := by
    rw [← List.head?_cons (a := m), ← hfront, List.head?_take, if_neg (by decide)]
  obtain ⟨body, hbody, starts, hstarts, -, hall⟩ := hm _ rfl
  obtain rfl : [0, 1, 4] = starts :=
    Except.ok.inj ((by decide +kernel : _ = .ok [0, 1, 4]).symm.trans hstarts)
  have hsite : siteAt [0x2a, 0xb4, 0, 11, 0xae] 1 = some ⟨1, 0xb4, 11⟩ := by decide +kernel
  obtain ⟨s, hs, htyped⟩ :=
    Instruction.exists_of_rel_some_left (hsite ▸ hall 1 (by decide))
  have hbefore : mistyped.pool.memberRef 11 = .ok ⟨"A", "x", "F"⟩ := by decide +kernel
  refine ⟨r, hweave, hpacked, m, body, s, ?_⟩
  have hfield : mistyped.instanceField? "x" = some ⟨0, 7, 8, []⟩ := by decide +kernel
  cases htyped (.inl rfl) with
  | replaced target called f descriptor htarget _ hf hdescriptor _ hmethod _ hcalled =>
    obtain rfl := Except.ok.inj (hbefore.symm.trans htarget)
    obtain rfl := Option.some.inj (hfield.symm.trans hf)
    obtain rfl : "I" = descriptor :=
      Except.ok.inj ((by decide +kernel : _ = .ok "I").symm.trans hdescriptor)
    exact ⟨called, hhead, hbody, hs, hbefore, hmethod, hcalled⟩
  | kept target htarget _ hnone =>
    obtain rfl := Except.ok.inj (hbefore.symm.trans htarget)
    have hname : mistyped.name = .ok "A" := by decide +kernel
    obtain ⟨_, -, -, -, hname', -⟩ := ClassFile.weave_eq_ok hweave
    have hnone := hnone (Except.ok.inj (hname.symm.trans hname'))
    rw [hfield] at hnone
    cases hnone

end Packed

end ClassWeave
