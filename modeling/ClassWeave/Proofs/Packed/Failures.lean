import ClassWeave.Proofs.Instruction.Tiling
import ClassWeave.Proofs.Packed.Accesses
import ClassWeave.Proofs.Packed.Overflow
import ClassWeave.Proofs.Weaving.Failures
import ClassWeave.Proofs.Weaving.Resolvable
import ClassWeave.Proofs.Weaving.Scan

/-!
# Why a valid unit cannot be packed

Packing looks up names again that reading has resolved, asks again for the packed types that
validating has found, and checks the numbers in the code that it generates.  None of this fails for
a unit that was read and validated.  What is left are the bodies that the unit came with, which
neither reading nor validating looks into, and the room in the pool.

* `Malformation.isPackingCheck` : the causes that packing has checks of its own for.
* `Packed.Fault` : what can keep a valid unit from being packed.
* `Packed.Packable`, `exists_packable` : what reading and validating make sure of.
* `Packed.exists_gives_apply` : a valid unit without methods is packed if its pool has the room.
* `Packed.fault_of_apply` : packing a valid unit fails for a fault of the unit.
-/

namespace ClassWeave

open Instruction (Site)

/-! ### Causes -/

namespace Malformation

/-- The cause is found by one of the checks on the code that packing generates. -/
def isPackingCheck : Malformation → Bool
  | strideTooLarge _ | fieldOffsetTooLarge _ | initialBufferTooLarge _ => true
  | capacityFrameOutOfRange _ | flyweightFrameOutOfRange _ | branchOutOfRange _ => true
  | noPackedField _ => true
  | _ => false

end Malformation

namespace Instruction

variable {offset place : Nat} {window code : Bytes} {cause : Malformation}

theorem isPackingCheck_of_wordAt (h : wordAt window place = .error cause) :
    cause.isPackingCheck = false := by
  unfold wordAt at h
  split at h
  · cases h
  · cases h
    rfl

theorem isPackingCheck_of_claimedLength (h : claimedLength offset window = .error cause) :
    cause.isPackingCheck = false := by
  unfold claimedLength at h
  split at h
  · cases h
    rfl
  split at h
  · cases h
  simp only at h
  split_ifs at h
  · -- a switch with a table of keys
    rcases except_bind_eq_error.1 h with hlow | ⟨low, -, h⟩
    · exact isPackingCheck_of_wordAt hlow
    rcases except_bind_eq_error.1 h with hhigh | ⟨high, -, h⟩
    · exact isPackingCheck_of_wordAt hhigh
    split_ifs at h
    · cases h
      rfl
    · cases h
  · -- a switch with a list of keys
    rcases except_bind_eq_error.1 h with hpairs | ⟨pairs, -, h⟩
    · exact isPackingCheck_of_wordAt hpairs
    split_ifs at h
    · cases h
      rfl
    · cases h
  · split at h
    · cases h
      rfl
    · cases h
  · cases h
    rfl

/-- The walk over a body is not concerned with packing. -/
theorem isPackingCheck_of_offsets (h : offsets code = .error cause) :
    cause.isPackingCheck = false := by
  obtain ⟨row, rest, -, -, -, hlength⟩ := offsetsFrom_eq_error.1 h
  rcases except_bind_eq_error.1 hlength with hclaimed | ⟨n, -, h⟩
  · exact isPackingCheck_of_claimedLength hclaimed
  · split_ifs at h
    · cases h
      rfl
    · cases h

end Instruction

namespace ConstantPool

variable {p : ConstantPool} {i k : UInt16} {cause : Malformation}

theorem isPackingCheck_of_get (h : p.get i = .error cause) : cause.isPackingCheck = false := by
  unfold get at h
  split at h
  · cases h
  · cases h
    rfl

theorem isPackingCheck_of_utf8 (h : p.utf8 i = .error cause) : cause.isPackingCheck = false := by
  rcases except_bind_eq_error.1 h with hget | ⟨c, -, h⟩
  · exact isPackingCheck_of_get hget
  split at h
  · cases h
  · cases h
    rfl

theorem isPackingCheck_of_className (h : p.className i = .error cause) :
    cause.isPackingCheck = false := by
  rcases except_bind_eq_error.1 h with hget | ⟨c, -, h⟩
  · exact isPackingCheck_of_get hget
  split at h
  · exact isPackingCheck_of_utf8 h
  · cases h
    rfl

theorem isPackingCheck_of_nameAndType (h : p.nameAndType i = .error cause) :
    cause.isPackingCheck = false := by
  rcases except_bind_eq_error.1 h with hget | ⟨c, -, h⟩
  · exact isPackingCheck_of_get hget
  split at h
  · rcases except_bind_eq_error.1 h with hname | ⟨_, -, h⟩
    · exact isPackingCheck_of_utf8 hname
    rcases except_bind_eq_error.1 h with hdescriptor | ⟨_, -, h⟩
    · exact isPackingCheck_of_utf8 hdescriptor
    · cases h
  · cases h
    rfl

theorem isPackingCheck_of_member (h : p.member i k = .error cause) :
    cause.isPackingCheck = false := by
  rcases except_bind_eq_error.1 h with hpair | ⟨_, -, h⟩
  · exact isPackingCheck_of_nameAndType hpair
  rcases except_bind_eq_error.1 h with howner | ⟨_, -, h⟩
  · exact isPackingCheck_of_className howner
  · cases h

/-- Nor is looking up a member. -/
theorem isPackingCheck_of_memberRef (h : p.memberRef i = .error cause) :
    cause.isPackingCheck = false := by
  rcases except_bind_eq_error.1 h with hget | ⟨c, -, h⟩
  · exact isPackingCheck_of_get hget
  split at h
  · exact isPackingCheck_of_member h
  · exact isPackingCheck_of_member h
  · exact isPackingCheck_of_member h
  · cases h
    rfl

end ConstantPool

namespace Packed

variable {versions : VersionRange} {index : TypeIndex} {owner : String} {view : List Field}
  {layout : PackedLayout} {u v : ClassFile} {e : Error} {cause : Malformation}

/-- More slots of the pool than packing takes: 71 for the members that every packed unit has and for
the new superclass, 100 for the accessors of each field, and 6 for what an instruction refers to in
the place of a field, or of a constructor of the old superclass. -/
def mostSlots (u : ClassFile) : Nat :=
  71 + 100 * u.fields.length + 2 * (6 * Member.siteCount u.methods)

/-- What can keep a valid unit from being packed. -/
inductive Fault (u : ClassFile) (cause : Malformation) : Prop
  /-- A method body does not split into instructions. -/
  | body (m : Member) : m ∈ u.methods → m.Unsplit cause → Fault u cause
  /-- A field access does not refer to a member. -/
  | access (m : Member) (s : Site) : m ∈ u.methods → s ∈ m.sites → IsFieldAccess s.opcode →
      u.pool.memberRef s.operand = .error cause → Fault u cause
  /-- In a constructor an instruction that calls constructors does not refer to a member, and still
  does not once the pool has grown. -/
  | construction (m : Member) (s : Site) (p : ConstantPool) (before : Malformation) :
      m ∈ u.methods → s ∈ m.sites → m.nameIn u.pool = .ok "<init>" →
      s.opcode = Opcode.invokeSpecial → u.pool.memberRef s.operand = .error before →
      u.pool.Extends p → p.memberRef s.operand = .error cause → Fault u cause
  /-- The pool has little room left. -/
  | overflow : u.pool.Lacks (mostSlots u) cause → Fault u cause

/-- No fault is found by a check on generated code. -/
theorem Fault.isPackingCheck (h : Fault u cause) : cause.isPackingCheck = false := by
  cases h with
  | body m _ hbody =>
    obtain ⟨_, -, hoffsets⟩ := hbody
    exact Instruction.isPackingCheck_of_offsets hoffsets
  | access _ _ _ _ _ htarget => exact ConstantPool.isPackingCheck_of_memberRef htarget
  | construction _ _ _ _ _ _ _ _ _ _ htarget =>
    exact ConstantPool.isPackingCheck_of_memberRef htarget
  | overflow hlacks =>
    rw [hlacks.1]
    rfl

/-! ### Valid units -/

/-- What reading and validating make sure of. -/
structure Packable (index : TypeIndex) (owner : String) (view : List Field) (u : ClassFile) :
    Prop where
  /-- The unit has a name. -/
  name : u.name = .ok owner
  /-- Its fields can be viewed. -/
  fieldsView : u.fieldsView = .ok view
  /-- Names and descriptors are there. -/
  resolved : u.Resolved
  /-- All nested components are packed types. -/
  nested : firstUnresolved? index (.ofFields view) = none
  /-- There are not too many fields. -/
  fits : (PackedLayout.ofFields view).Fits
  /-- What the layout has was declared. -/
  declared : (PackedLayout.ofFields view).fields.length ≤ u.fields.length

theorem exists_packable {b : Bytes} (hread : ClassFile.read versions b = .ok u)
    (hvalid : u.validate .packed index = .ok ()) : ∃ owner view, Packable index owner view u := by
  obtain ⟨-, -, hresolved, _, _, -, ⟨⟨-, hcount, -⟩, -⟩, -⟩ := ClassFile.read_eq_ok.1 hread
  obtain ⟨owner, hname⟩ := hresolved.thisClass
  obtain ⟨view, hview⟩ := ClassFile.exists_fieldsView_iff.2 hresolved.viewable
  have hlength : u.fields.length = view.length := (except_mapM_eq_ok.1 hview).length_eq
  have hdeclared : (PackedLayout.ofFields view).fields.length ≤ u.fields.length :=
    hlength ▸ PackedLayout.length_fields_le view
  refine ⟨owner, view, hname, hview, hresolved, ?_,
    PackedLayout.fits_ofFields (hlength ▸ hcount), hdeclared⟩
  refine List.findSome?_eq_none_iff.2 fun f hf => ?_
  have hpackable := isPackable_of_validate hvalid hname hview hf
  cases hkind : f.kind with
  | object nested =>
    rw [hkind] at hpackable
    simp only [ValueKind.isPackable, Bool.and_eq_true] at hpackable
    simp only [hpackable.2, if_true]
  | _ => rfl

/-! ### Stages -/

/-- An access that is replaced refers to a field of the layout, so there is nothing but the room in
the pool that it can fail for. -/
theorem takes_redirectAccess {m : Member} {s : Site} {p : ConstantPool}
    (hchosen : accessesLayout owner layout p m s = .ok true) :
    Interning.Takes 6 (redirectAccess owner layout p s) := by
  obtain ⟨-, target, f, htarget, -, hf⟩ := accessesLayout_true hchosen
  refine .lift htarget ?_
  simp only [hf]
  split_ifs
  all_goals exact Interning.takes_methodRef.bind fun _ => Interning.takes_pure _

theorem fault_of_rewriteAccesses (h : Fails (rewriteAccesses owner layout) u e) :
    ∃ cause, e = .malformed cause ∧ Fault u cause := by
  obtain ⟨cause, rfl, hwhy⟩ := Edit.fails_rewriteSites (fun _ _ => takes_redirectAccess) h
  refine ⟨cause, rfl, ?_⟩
  rcases hwhy with ⟨m, hm, hbody | ⟨s, hs, hchoose⟩⟩ | hlacks
  · exact .body m hm hbody
  · unfold accessesLayout at hchoose
    split_ifs at hchoose with hother
    · exact absurd hchoose except_pure_ne_error
    rcases except_bind_eq_error.1 hchoose with htarget | ⟨_, -, hchoose⟩
    · exact .access m s hm hs (by unfold IsFieldAccess; tauto) htarget
    · exact absurd hchoose except_pure_ne_error
  · have hcount := Edit.sum_chosenIn_le (accessesLayout owner layout u.pool) u.methods
    exact .overflow (hlacks.mono (by unfold mostSlots; omega))

theorem size_of_gives_rewriteAccesses {r : Unit} (h : Gives (rewriteAccesses owner layout) u r v) :
    v.pool.size ≤ u.pool.size + 6 * Member.siteCount u.methods := by
  have hcount := Edit.sum_chosenIn_le (accessesLayout owner layout u.pool) u.methods
  have hsize := Edit.size_of_gives_rewriteSites (fun _ _ => takes_redirectAccess) h
  omega

theorem takes_setUp (hfits : layout.Fits) : Growing.Takes 17 (do
    let size ← initialSize layout
    let (_, body) ← Growing.emission (staticInitBody owner size)
    Growing.addMethod Access.staticFlag staticInitName Scan.plainDescriptor body 0 none) := by
  obtain ⟨size, hsize⟩ := exists_initialSize hfits
  exact .lift hsize takes_addStaticInit

theorem lacks_of_fails_addStaticInit (hfits : layout.Fits)
    (hmethods : ∀ m ∈ v.methods, m.HasTexts v.pool) (h : Fails (addStaticInit owner layout) v e) :
    ∃ cause, e = .malformed cause ∧ v.pool.Lacks 17 cause := by
  rcases fails_bind.1 h with hask | ⟨init?, v₁, hask, h₁⟩
  · obtain ⟨cause, hfind, -⟩ := Edit.fails_ask.1 hask
    obtain ⟨init?, hinit⟩ :=
      ClassFile.exists_firstMethod?_of_hasTexts staticInitName Scan.plainDescriptor hmethods
    rw [ClassFile.findMethod?, hinit] at hfind
    cases hfind
  obtain ⟨-, rfl⟩ := Edit.gives_ask.1 hask
  split at h₁
  · exact Edit.lacks_of_fails_grow (takes_setUp hfits) h₁
  · exact absurd h₁ not_fails_pure

theorem size_of_gives_addStaticInit {t : ClassFile} {r : Unit} (hfits : layout.Fits)
    (h : Gives (addStaticInit owner layout) v r t) : t.pool.size ≤ v.pool.size + 17 := by
  obtain ⟨init?, v₁, hask, h₁⟩ := gives_bind.1 h
  obtain ⟨-, rfl⟩ := Edit.gives_ask.1 hask
  split at h₁
  · exact Edit.size_of_gives_grow (takes_setUp hfits) h₁
  · obtain ⟨-, rfl⟩ := gives_pure.1 h₁
    exact Nat.le_add_right _ _

/-- Rewritten methods still have their names and descriptors. -/
theorem AccessesRewritten.hasTexts (h : AccessesRewritten owner layout u v) (hu : u.Resolved) :
    ∀ m ∈ v.methods, m.HasTexts v.pool := by
  intro m' hm'
  obtain ⟨m, hm, hrewritten⟩ := exists_of_mem_right h.methods hm'
  have hhead := (Edit.retouched_of_rewritten (exchanges_accesses owner layout u.pool)
    hrewritten).1.sameHead
  have htexts := Member.HasTexts.mono h.pool (hu.methods m hm)
  unfold Member.HasTexts Member.nameIn Member.descriptorIn at htexts ⊢
  rwa [hhead.name, hhead.descriptor]

/-- If constructor calls cannot be found in a rewritten method, this is a fault of the unit as it
was: a member instruction that has been replaced refers to an accessor. -/
theorem AccessesRewritten.fault {m' : Member} {p : ConstantPool}
    (h : AccessesRewritten owner layout u v) (hu : u.Resolved) (hp : v.pool.Extends p)
    (hm' : m' ∈ v.methods)
    (hwhy : Edit.Unsearchable (Edit.callsConstructorOf plainBase p) m' cause) : Fault u cause := by
  obtain ⟨m, hm, hrewritten⟩ := exists_of_mem_right h.methods hm'
  have hexchanges := exchanges_accesses owner layout u.pool
  obtain ⟨hsplit, hsites⟩ := Edit.sites_of_rewritten hexchanges hrewritten
  rcases hwhy with hbody | ⟨s, hs, hchoose⟩
  · exact absurd hbody (hsplit cause)
  obtain ⟨hopcode, hwhy⟩ := Edit.callsConstructorOf_eq_error hchoose
  -- the method has kept its name
  have hhead := (Edit.retouched_of_rewritten hexchanges hrewritten).1.sameHead
  obtain ⟨name, hname⟩ := (hu.methods m hm).1
  have hname' : m'.nameIn p = .ok name := by
    rw [Member.nameIn, hhead.name]
    exact (h.pool.trans hp).utf8 hname
  rcases hwhy with hnone | ⟨hinit, htarget⟩
  · rw [hname'] at hnone
    cases hnone
  obtain rfl := Except.ok.inj (hname'.symm.trans hinit)
  obtain ⟨s₀, hs₀, hturned⟩ := exists_of_mem_right hsites hs
  rcases hturned with ⟨-, rfl⟩ | ⟨-, a, b, -, hgives, hb⟩
  · cases hbefore : u.pool.memberRef s.operand with
    | ok target =>
      rw [(h.pool.trans hp).memberRef hbefore] at htarget
      cases htarget
    | error before =>
      exact .construction m s p before hm hs₀ hname hopcode hbefore (h.pool.trans hp) htarget
  · obtain ⟨-, -, -, _, _, -, -, hmethod⟩ := gives_redirectAccess hgives
    have haccessor := ConstantPool.memberRef_of_refAt? (.inr rfl) hmethod
    rw [(hb.trans hp).memberRef haccessor] at htarget
    cases htarget

/-- So replacing the superclass at the end fails for a fault of the unit, too: generated methods are
no constructors. -/
theorem fault_of_reparent {u₁ : ClassFile} {new : List Member} (hu : u.Resolved)
    (hrewritten : AccessesRewritten owner layout u u₁) (hpool : u₁.pool.Extends v.pool)
    (hsuper : v.superClass = u.superClass) (hmethods : v.methods = u₁.methods ++ new)
    (hnew : ∀ m ∈ new, ∃ d framed, d.name ≠ "<init>" ∧ MethodDesign.Realized framed v.pool d m)
    (hsize : v.pool.size + (6 * Member.siteCount u.methods + 2) ≤ u.pool.size + mostSlots u)
    (h : Fails (Edit.reparent plainBase packedBase) v e) :
    ∃ cause, e = .malformed cause ∧ Fault u cause := by
  obtain ⟨cause, rfl, hwhy⟩ := Edit.fails_reparent h
  refine ⟨cause, rfl, ?_⟩
  cases hwhy with
  | superName hname =>
    obtain ⟨name?, hname?⟩ := ClassFile.superName?_eq_ok.2 hu.superClass
    rw [ClassFile.superName?_mono (hrewritten.pool.trans hpool) hsuper hname?] at hname
    cases hname
  | name hlacks => exact .overflow (hlacks.mono (by omega))
  | search p m hp hm hwhy =>
    rw [hmethods] at hm
    rcases List.mem_append.1 hm with hm | hm
    · exact hrewritten.fault hu (hpool.trans hp) hm hwhy
    · obtain ⟨d, framed, hne, hrealized⟩ := hnew m hm
      exact absurd hwhy ((Edit.searched_of_realized (hrealized.mono hp) hne).1 cause)
  | calls p hp hlacks =>
    have hnone : (new.map (Edit.chosenIn (Edit.callsConstructorOf plainBase p))).sum = 0 := by
      refine List.sum_eq_zero fun n hn => ?_
      obtain ⟨m, hm, rfl⟩ := List.mem_map.1 hn
      obtain ⟨d, framed, hne, hrealized⟩ := hnew m hm
      exact (Edit.searched_of_realized (hrealized.mono hp) hne).2
    have hcount := Edit.sum_chosenIn_le (Edit.callsConstructorOf plainBase p) u₁.methods
    rw [Edit.siteCount_of_rewritten (exchanges_accesses owner layout u.pool) hrewritten.methods]
      at hcount
    rw [hmethods, List.map_append, List.sum_append, hnone] at hlacks
    exact .overflow (hlacks.mono (by omega))

/-- A valid unit cannot be packed only for one of its faults. -/
theorem Packable.fault (h : Packable index owner view u) (hfails : Fails (apply index) u e) :
    ∃ cause, e = .malformed cause ∧ Fault u cause := by
  rcases fails_bind.1 hfails with hname | ⟨owner', u₁, hname, h₁⟩
  · obtain ⟨cause, hname, -⟩ := Edit.fails_ask.1 hname
    rw [h.name] at hname
    cases hname
  obtain ⟨hname, rfl⟩ := Edit.gives_ask.1 hname
  rcases fails_bind.1 h₁ with hview | ⟨view', u₂, hview, h₂⟩
  · obtain ⟨cause, hview, -⟩ := Edit.fails_ask.1 hview
    rw [h.fieldsView] at hview
    cases hview
  obtain ⟨hview, rfl⟩ := Edit.gives_ask.1 hview
  obtain rfl := Except.ok.inj (h.fieldsView.symm.trans hview)
  simp only [h.nested] at h₂
  rcases fails_bind.1 h₂ with hrewrite | ⟨_, u₃, hrewrite, h₃⟩
  · exact fault_of_rewriteAccesses hrewrite
  have hsize₃ := size_of_gives_rewriteAccesses hrewrite
  obtain ⟨hpool, hsites, hrest⟩ :=
    Edit.gives_rewriteSites (fun _ _ _ _ h => (gives_redirectAccess h).1) hrewrite
  have hrewritten : AccessesRewritten owner' (.ofFields view) u₂ u₃ := ⟨hpool, hsites, hrest⟩
  -- from here on it is the room in the pool that is left to count
  have hdeclared := h.declared
  have hslots : mostSlots u₂ = 71 + 100 * u₂.fields.length +
    2 * (6 * Member.siteCount u₂.methods) := rfl
  have hfault {w : ClassFile} {n : Nat} (hle : w.pool.size + n ≤ u₂.pool.size + mostSlots u₂)
      (hwhy : ∃ cause, e = .malformed cause ∧ w.pool.Lacks n cause) :
      ∃ cause, e = .malformed cause ∧ Fault u₂ cause := by
    obtain ⟨cause, he, hlacks⟩ := hwhy
    exact ⟨cause, he, .overflow (hlacks.mono hle)⟩
  rcases fails_bind.1 h₃ with hmodify | ⟨_, u₄, hmodify, h₄⟩
  · exact absurd hmodify not_fails_modify
  have hsize₄ : u₄.pool.size = u₃.pool.size := by rw [gives_modify.1 hmodify]
  obtain rfl := gives_modify.1 hmodify
  rcases fails_bind.1 h₄ with hshared | ⟨_, u₅, hshared, h₅⟩
  · exact hfault (by omega) (Edit.lacks_of_fails_grow (takes_addSharedFields h.fits) hshared)
  have hsize₅ := Edit.size_of_gives_grow (takes_addSharedFields h.fits) hshared
  have hshared := Edit.gives_grow adds_addSharedFields hshared
  rcases fails_bind.1 h₅ with hinit | ⟨_, u₆, hinit, h₆⟩
  · have hmethods : u₅.methods = u₃.methods := by
      obtain ⟨_, _, -, ⟨⟩, hu₅⟩ := hshared.members
      rw [hu₅]
      exact List.append_nil _
    have htexts : ∀ m ∈ u₅.methods, m.HasTexts u₅.pool := fun m hm =>
      (hrewritten.hasTexts h.resolved m (hmethods ▸ hm)).mono hshared.pool
    exact hfault (by omega) (lacks_of_fails_addStaticInit h.fits htexts hinit)
  have hsize₆ := size_of_gives_addStaticInit h.fits hinit
  have hinit := gives_addStaticInit hinit
  rcases fails_bind.1 h₆ with hmethods | ⟨_, u₇, hmethods, h₇⟩
  · exact hfault (by omega) (Edit.lacks_of_fails_grow (takes_addMethods h.fits) hmethods)
  have hsize₇ := Edit.size_of_gives_grow (takes_addMethods h.fits) hmethods
  have hmethods := Edit.gives_grow adds_addMethods hmethods
  obtain ⟨hpool', hsuper, new, hold, hnew⟩ := methods_of_stages hrewritten hshared hinit hmethods
  rcases fails_bind.1 h₇ with hreparent | ⟨_, _, -, h₈⟩
  · exact fault_of_reparent h.resolved hrewritten hpool' hsuper hold hnew (by omega) hreparent
  · exact absurd h₈ not_fails_pure

/-- So a valid unit without methods is packed whenever its pool has the room. -/
theorem exists_gives_apply {b : Bytes} (hread : ClassFile.read versions b = .ok u)
    (hvalid : u.validate .packed index = .ok ()) (hbare : u.methods = [])
    (hroom : u.pool.size + mostSlots u ≤ ConstantPool.maxSlots) :
    ∃ layout t, Gives (apply index) u layout t := by
  obtain ⟨owner, view, hpackable⟩ := exists_packable hread hvalid
  refine exists_gives fun e hfails => ?_
  obtain ⟨cause, -, hfault⟩ := hpackable.fault hfails
  cases hfault with
  | body m hm => exact absurd (hbare ▸ hm) List.not_mem_nil
  | access m s hm => exact absurd (hbare ▸ hm) List.not_mem_nil
  | construction m s p before hm => exact absurd (hbare ▸ hm) List.not_mem_nil
  | overflow hlacks => exact Nat.lt_irrefl _ (Nat.lt_of_lt_of_le hlacks.2 hroom)

/-- **Packing a valid unit fails only for what the unit came with.**  A unit that was read and
validated has no unresolved type, and passes every check on the code that is generated for it.  So
if packing fails, a method body of the unit does not split into instructions, a field access or an
instruction of a constructor that calls constructors does not refer to a member, or the pool has
less room than packing may take. -/
theorem fault_of_apply {b : Bytes} (hread : ClassFile.read versions b = .ok u)
    (hvalid : u.validate .packed index = .ok ()) (hfails : Fails (apply index) u e) :
    ∃ cause, e = .malformed cause ∧ cause.isPackingCheck = false ∧ Fault u cause := by
  obtain ⟨owner, view, hpackable⟩ := exists_packable hread hvalid
  obtain ⟨cause, he, hfault⟩ := hpackable.fault hfails
  exact ⟨cause, he, hfault.isPackingCheck, hfault⟩

/-- A component whose constructor calls a slot behind the pool.  By the time that this is noticed,
the slot holds the name of a generated field. -/
theorem fault_of_apply_dangling :
    let u : ClassFile :=
      { minor := 0, major := 52,
        pool := ⟨#[none, some (.utf8 "A"), some (.classInfo 1),
          some (.utf8 "com/artemis/Component"), some (.classInfo 3), some (.utf8 "Code"),
          some (.utf8 "<init>"), some (.utf8 "()V")]⟩,
        access := 0x21, thisClass := 2, superClass := 4, interfaces := [], fields := [],
        methods := [{ access := 1, name := 6, descriptor := 7,
                      attributes := [.code 5 ⟨1, 1, [0x2a, 0xb7, 0, 8, 0xb1], [], []⟩] }],
        attributes := [] }
    let cause : Malformation := .wrongConstant 8 .memberRef (.utf8 indexField)
    (∃ b, ClassFile.read {} b = .ok u) ∧ u.validate .packed .empty = .ok () ∧
      Fails (apply .empty) u (.malformed cause) ∧ cause.isPackingCheck = false ∧ Fault u cause ∧
      u.pool.memberRef 8 = .error (.noConstant 8) := by
  intro u cause
  obtain ⟨b, hread⟩ : ∃ b, ClassFile.read {} b = .ok u := ClassFile.exists_read (by decide +kernel)
  have hvalid : u.validate .packed .empty = .ok () := by decide +kernel
  have hfails : Fails (apply .empty) u (.malformed cause) := by
    unfold Fails
    decide +kernel
  obtain ⟨found, he, hcheck, hfault⟩ := fault_of_apply hread hvalid hfails
  cases he
  exact ⟨⟨b, hread⟩, hvalid, hfails, hcheck, hfault, by decide +kernel⟩

end Packed

end ClassWeave
