import ClassWeave.Proofs.Packed.Accesses

/-!
# Objects and the constructors that are called for them

A body creates an object by its class, and then calls a constructor of that class for it.  In a
constructor such a call looks like the one for the superclass: both are special calls of `<init>`,
and only the object on the stack tells them apart.  Moving a unit to another superclass looks at
the reference alone, so it also moves the calls for new objects of the plain base class, and these
are then constructed by a class that they are not of.

* `Instruction.Retouched.take_drop` : instructions that cannot be replaced keep their bytes.
* `Member.Readdressed` : a method whose special calls go to other targets.
* `Instruction.ConstructsAt` : an object is created, and a constructor called for it.
* `ClassFile.TakenForSuperCall` : such a call is moved along with those for the superclass.
* `ClassFile.constructed_of_weave` : which class constructs the objects of a woven unit.
-/

namespace ClassWeave

open Instruction (Site siteAt)

/-! ### Instructions that stay -/

namespace Instruction

variable {offset n i j k : Nat} {opcode : UInt8} {code code' : Bytes} {row : List Bytes}
  {offs : List Nat}

/-- No instruction starts inside another whose length is fixed. -/
theorem Row.add_le_of_lt (hrow : Row offset row) (hk : offset + k ∈ starts offset row)
    (hj : offset + j ∈ starts offset row) (hopcode : row.flatten[k]? = some opcode)
    (hfixed : fixedLength? opcode = some n) (hlt : k < j) : k + n ≤ j := by
  induction hrow generalizing k j with
  | nil => cases hk
  | @cons offset first w row hclaims _ ih =>
    rcases List.mem_cons.1 hj with hhere | hj
    · omega
    have hle := le_of_mem_starts hj
    rw [List.length_cons] at hle
    rcases List.mem_cons.1 hk with hhere | hk
    · obtain rfl : k = 0 := by omega
      obtain rfl : first = opcode := Option.some.inj hopcode
      have hlength := hclaims.eq_of_fixedLength? hfixed
      omega
    · -- both start behind the first instruction
      have hle' := le_of_mem_starts hk
      rw [List.length_cons] at hle'
      obtain ⟨k, rfl⟩ : ∃ d, k = (first :: w).length + d :=
        Nat.exists_eq_add_of_le (by rw [List.length_cons]; omega)
      obtain ⟨j, rfl⟩ : ∃ d, j = (first :: w).length + d :=
        Nat.exists_eq_add_of_le (by rw [List.length_cons]; omega)
      rw [getElem?_flatten_add] at hopcode
      have hlater := ih (by rwa [Nat.add_assoc]) (by rwa [Nat.add_assoc]) hopcode (by omega)
      omega

theorem add_le_of_lt (h : offsets code = .ok offs) (hk : k ∈ offs) (hj : j ∈ offs)
    (hopcode : code[k]? = some opcode) (hfixed : fixedLength? opcode = some n) (hlt : k < j) :
    k + n ≤ j := by
  obtain ⟨row, hrow, rfl⟩ := row_of_offsetsFrom h
  obtain rfl : starts 0 row = offs := Except.ok.inj (hrow.offsetsFrom.symm.trans h)
  exact hrow.add_le_of_lt (by rwa [Nat.zero_add]) (by rwa [Nat.zero_add]) hopcode hfixed hlt

/-- An instruction starts at the offset.  In a body that cannot be walked, one may start at any
offset. -/
def MayStart (code : Bytes) (k : Nat) : Prop := ∀ starts, offsets code = .ok starts → k ∈ starts

instance (code : Bytes) (k : Nat) : Decidable (MayStart code k) :=
  decidable_of_iff (∀ starts ∈ (offsets code).toOption, k ∈ starts) (by
    unfold MayStart
    cases offsets code <;> simp [Except.toOption])

theorem Retouched.mayStart_iff (h : Retouched code code') : MayStart code' k ↔ MayStart code k := by
  rw [MayStart, MayStart, h.offsets]

/-- An instruction that cannot be replaced keeps all its bytes. -/
theorem Retouched.getElem?_eq (h : Retouched code code') (hk : MayStart code k)
    (hopcode : code[k]? = some opcode) (hfixed : fixedLength? opcode = some n)
    (hother : opcode ∉ swapped) (hi : i < n) : code'[k + i]? = code[k + i]? := by
  by_contra hne
  -- the byte would belong to an instruction that can be replaced, which has three bytes
  obtain ⟨starts, j, hstarts, hj, hle, hlt, opcode', hswapped, hopcode'⟩ := h.windows _ hne
  have hthree := fixedLength?_of_isMemberOpcode (isMemberOpcode_of_mem_swapped hswapped)
  rcases Nat.lt_trichotomy j k with hbefore | rfl | hbehind
  · have := add_le_of_lt hstarts hj (hk starts hstarts) hopcode' hthree hbefore
    omega
  · obtain rfl := Option.some.inj (hopcode.symm.trans hopcode')
    exact hother hswapped
  · have := add_le_of_lt hstarts (hk starts hstarts) hj hopcode hfixed hbehind
    omega

theorem Retouched.take_drop (h : Retouched code code') (hk : MayStart code k)
    (hopcode : code[k]? = some opcode) (hfixed : fixedLength? opcode = some n)
    (hother : opcode ∉ swapped) : (code'.drop k).take n = (code.drop k).take n := by
  refine List.ext_getElem? fun i => ?_
  rw [List.getElem?_take, List.getElem?_take]
  split_ifs with hi
  · rw [List.getElem?_drop, List.getElem?_drop]
    exact h.getElem?_eq hk hopcode hfixed hother hi
  · rfl

/-! ### Special calls -/

variable {p q : ConstantPool} {target target' : MemberRef}

/-- The instruction at the offset is a special call of the target. -/
def CallsAt (pool : ConstantPool) (code : Bytes) (k : Nat) (target : MemberRef) : Prop :=
  ∃ s, siteAt code k = some s ∧ s.opcode = Opcode.invokeSpecial ∧
    pool.memberRef s.operand = .ok target

instance (pool : ConstantPool) (code : Bytes) (k : Nat) (target : MemberRef) :
    Decidable (CallsAt pool code k target) :=
  inferInstanceAs (Decidable (∃ s ∈ siteAt code k, s.opcode = Opcode.invokeSpecial ∧
    pool.memberRef s.operand = .ok target))

theorem CallsAt.mono (hpq : p.Extends q) (h : CallsAt p code k target) :
    CallsAt q code k target := by
  obtain ⟨s, hs, hopcode, htarget⟩ := h
  exact ⟨s, hs, hopcode, hpq.memberRef htarget⟩

theorem CallsAt.eq (h : CallsAt p code k target) (h' : CallsAt p code k target') :
    target = target' := by
  obtain ⟨s, hs, -, htarget⟩ := h
  obtain ⟨s', hs', -, htarget'⟩ := h'
  obtain rfl := Option.some.inj (hs.symm.trans hs')
  exact Except.ok.inj (htarget.symm.trans htarget')

end Instruction

open Instruction (MayStart CallsAt)

namespace Member

variable {f g : MemberRef → MemberRef} {p q r : ConstantPool} {m m₁ m' : Member} {body : Code}

theorem Retouched.exists_body (h : m.Retouched m') (hbody : m.code? = some body) :
    ∃ body', m'.code? = some body' ∧
      Instruction.Retouched body.instructions body'.instructions := by
  obtain ⟨edit, rfl, hedit⟩ := h
  rw [code?_editCode, hbody, Option.map_some]
  exact ⟨_, rfl, hedit body hbody⟩

/-- The second method is the first with other member instructions in its first body.  Its special
calls, which are looked up in the pool `q` and no more in `p`, go to what `f` makes of their
targets. -/
structure Readdressed (f : MemberRef → MemberRef) (p q : ConstantPool) (m m' : Member) : Prop where
  /-- Other instructions stay. -/
  retouched : m.Retouched m'
  /-- The targets are replaced. -/
  calls : ∀ body body', m.code? = some body → m'.code? = some body' → ∀ k target,
    MayStart body.instructions k → CallsAt p body.instructions k target →
      CallsAt q body'.instructions k (f target)

namespace Readdressed

theorem refl (hpq : p.Extends q) (m : Member) : m.Readdressed id p q m := by
  refine ⟨.refl m, fun body body' hbody hbody' k target _ hcall => ?_⟩
  obtain rfl := Option.some.inj (hbody.symm.trans hbody')
  exact hcall.mono hpq

theorem widen {p' q' : ConstantPool} (hp : p'.Extends p) (hq : q.Extends q')
    (h : m.Readdressed f p q m') : m.Readdressed f p' q' m' :=
  ⟨h.retouched, fun body body' hbody hbody' k target hk hcall =>
    (h.calls body body' hbody hbody' k target hk (hcall.mono hp)).mono hq⟩

theorem trans (h : m.Readdressed f p q m₁) (h' : m₁.Readdressed g q r m') :
    m.Readdressed (g ∘ f) p r m' := by
  refine ⟨h.retouched.trans h'.retouched, fun body body' hbody hbody' k target hk hcall => ?_⟩
  obtain ⟨body₁, hbody₁, hretouched⟩ := h.retouched.exists_body hbody
  exact h'.calls body₁ body' hbody₁ hbody' k (f target) (hretouched.mayStart_iff.2 hk)
    (h.calls body body₁ hbody hbody₁ k target hk hcall)

end Readdressed

end Member

/-! ### Edits -/

/-- The target of a call in a constructor, once the superclass `old` has been replaced by the
superclass `new`. -/
def MemberRef.moved (old new : String) (target : MemberRef) : MemberRef :=
  if target.owner = old ∧ target.name = "<init>" then { target with owner := new } else target

namespace Edit

variable {p q : ConstantPool} {m m' : Member} {f : MemberRef → MemberRef}

/-- Rewriting readdresses a method by what it makes of the special calls. -/
theorem readdressed_of_rewritten {choose : Member → Site → Except Malformation Bool}
    {redirect : Site → Interning Site} (hexchanges : Exchanges choose redirect)
    (hturned : ∀ s s' target, Turned (choose m) redirect p q s s' →
      s.opcode = Opcode.invokeSpecial → p.memberRef s.operand = .ok target →
        s'.opcode = Opcode.invokeSpecial ∧ q.memberRef s'.operand = .ok (f target))
    (h : Rewritten choose redirect p q m m') : m.Readdressed f p q m' := by
  refine ⟨(retouched_of_rewritten hexchanges h).1,
    fun body body' hbody hbody' k target hk hcall => ?_⟩
  obtain ⟨s, hs, hopcode, htarget⟩ := hcall
  obtain ⟨_, hcode, starts, hstarts, -, hall⟩ := sitesRelated_of_rewritten hexchanges h body hbody
  obtain rfl := Option.some.inj (hbody'.symm.trans hcode)
  obtain ⟨s', hs', hturns⟩ :=
    Instruction.exists_of_rel_some_left (hs ▸ hall k (hk starts hstarts))
  obtain ⟨hopcode', htarget'⟩ := hturned s s' target hturns hopcode htarget
  exact ⟨s', hs', hopcode', htarget'⟩

/-- Accesses to fields are no special calls. -/
theorem readdressed_of_accesses {owner : String} {layout : PackedLayout} (hpq : p.Extends q)
    (h : Rewritten (Packed.accessesLayout owner layout p) (Packed.redirectAccess owner layout p)
      p q m m') : m.Readdressed id p q m' := by
  refine readdressed_of_rewritten (Packed.exchanges_accesses owner layout p) ?_ h
  rintro s s' target (⟨-, rfl⟩ | ⟨htrue, -⟩) hopcode htarget
  · exact ⟨hopcode, hpq.memberRef htarget⟩
  · exact absurd (hopcode ▸ (Packed.accessesLayout_true htrue).1)
      Packed.not_isFieldAccess_invokeSpecial

/-- Replacing the superclass moves the calls in constructors. -/
theorem readdressed_of_constructors {old new : String} (hpq : p.Extends q)
    (h : Rewritten (callsConstructorOf old p) (redirectConstructor new p) p q m m') :
    m.Readdressed (if m.nameIn p = .ok "<init>" then .moved old new else id) p q m' := by
  refine readdressed_of_rewritten (exchanges_constructors old new p p) ?_ h
  rintro s s' target (⟨hfalse, rfl⟩ | ⟨htrue, a, b, -, hgives, hbq⟩) hopcode htarget
  · have hstays : (if m.nameIn p = .ok "<init>" then .moved old new else id) target = target := by
      split_ifs with hname
      · refine if_neg fun hboth => ?_
        have htrue := callsConstructorOf_eq_true.2 ⟨hopcode, hname, target, htarget, hboth⟩
        exact absurd (hfalse.symm.trans htrue) (by simp)
      · rfl
    rw [hstays]
    exact ⟨hopcode, hpq.memberRef htarget⟩
  · obtain ⟨-, hname, _, hsame, howner, hinit⟩ := callsConstructorOf_eq_true.1 htrue
    obtain rfl := Except.ok.inj (htarget.symm.trans hsame)
    obtain ⟨-, -, hopcode', _, hsame, hnew⟩ := gives_redirectConstructor hgives
    obtain rfl := Except.ok.inj (htarget.symm.trans hsame)
    rw [if_pos hname, MemberRef.moved, if_pos ⟨howner, hinit⟩, hinit]
    exact ⟨hopcode'.trans hopcode, hbq.memberRef hnew⟩

end Edit

/-! ### Strategies -/

/-- The base class that a strategy puts in place of the plain one. -/
def Strategy.base : Strategy → String
  | .none => plainBase
  | .pooled => pooledBase
  | .packed => packedBase

theorem Strategy.base_ne {s : Strategy} (hs : s ≠ .none) : s.base ≠ plainBase := by
  cases s with
  | none => exact absurd rfl hs
  | pooled | packed => decide

namespace ClassFile

variable {index : TypeIndex} {settings : Settings} {u v t : ClassFile} {base : String}

/-- What becomes of the target of a special call in a method when the unit is moved to the base
class `base`, if it is moved. -/
def readdress (u : ClassFile) (base : String) (m : Member) : MemberRef → MemberRef :=
  if u.superName? = .ok (some plainBase) ∧ m.nameIn u.pool = .ok "<init>" then
    .moved plainBase base
  else id

/-- The methods of the unit `u` are readdressed in the unit `t`, which may have others behind
them. -/
structure MethodsReaddressed (base : String) (u t : ClassFile) : Prop where
  /-- The pool grows. -/
  pool : u.pool.Extends t.pool
  /-- The methods that were there come first. -/
  methods : List.Forall₂ (fun m => m.Readdressed (u.readdress base m) u.pool t.pool) u.methods
    (t.methods.take u.methods.length)

/-- Edits that leave special calls alone, and then the superclass. -/
theorem methodsReaddressed_of_moved {old new : List Member} (hresolved : u.Resolved)
    (hpool : u.pool.Extends v.pool) (hsuper : v.superClass = u.superClass)
    (hold : List.Forall₂ (Member.Readdressed id u.pool v.pool) u.methods old)
    (hmethods : v.methods = old ++ new)
    (hmoved : v.superName? = .ok (some plainBase) ∧ Edit.Reparented plainBase base v t ∨
      (∃ name?, v.superName? = .ok name? ∧ name? ≠ some plainBase) ∧ t = v) :
    u.MethodsReaddressed base t := by
  obtain ⟨name?, hname?⟩ := superName?_eq_ok.2 hresolved.superClass
  have hname?' := superName?_mono hpool hsuper hname?
  have htake : v.methods.take u.methods.length = old := by
    rw [hmethods, hold.length_eq, List.take_left]
  rcases hmoved with ⟨hplain, hmoved⟩ | ⟨⟨other?, hother, hne⟩, rfl⟩
  · obtain rfl : name? = some plainBase := Except.ok.inj (hname?'.symm.trans hplain)
    obtain ⟨p, hp, hq, hms⟩ := hmoved.methods
    have hfront := List.forall₂_take u.methods.length hms
    rw [htake] at hfront
    refine ⟨hpool.trans hmoved.pool, forall₂_trans (fun m m₁ m' hm hm' => ?_)
      ((List.forall₂_and_left _ _).2 ⟨hresolved.methods, hold⟩) hfront⟩
    obtain ⟨⟨⟨name, hname⟩, -⟩, hm⟩ := hm
    -- the name of the method is the same in all pools
    have hname' : m₁.nameIn p = m.nameIn u.pool := by
      rw [Member.nameIn, hm.retouched.sameHead.name, hp.utf8 (hpool.utf8 hname)]
      exact hname.symm
    have hboth := hm.trans ((Edit.readdressed_of_constructors hq hm').widen hp (.refl _))
    rw [hname'] at hboth
    simpa only [readdress, hname?, true_and, Function.comp_id] using hboth
  · have hstays (m : Member) : u.readdress base m = id := by
      refine if_neg fun hboth => hne ?_
      exact Except.ok.inj (hother.symm.trans (superName?_mono hpool hsuper hboth.1))
    refine ⟨hpool, ?_⟩
    rw [htake]
    exact hold.imp fun m m' hm => (hstays m).symm ▸ hm

end ClassFile

theorem Pooled.Applied.methodsReaddressed {owner : String} {u t : ClassFile}
    (hresolved : u.Resolved) (h : Applied owner u t) : u.MethodsReaddressed pooledBase t := by
  obtain ⟨v, ⟨_, -, hreset⟩, hmoved⟩ := h.stages
  obtain ⟨new, hmethods, hpool, hsuper⟩ : ∃ new, v.methods = u.methods ++ new ∧
      u.pool.Extends v.pool ∧ v.superClass = u.superClass := by
    rcases hreset with ⟨-, rfl⟩ | ⟨-, targets, -, -, hgained⟩
    · exact ⟨[], (List.append_nil _).symm, .refl _, rfl⟩
    · obtain ⟨hpool, _, new, -, -, heq⟩ := hgained
      exact ⟨new, by rw [heq], hpool, by rw [heq]⟩
  exact ClassFile.methodsReaddressed_of_moved hresolved hpool hsuper
    (List.forall₂_same.2 fun m _ => .refl hpool m) hmethods hmoved

theorem Packed.Applied.methodsReaddressed {index : TypeIndex} {owner : String}
    {layout : PackedLayout} {u t : ClassFile} (hresolved : u.Resolved)
    (h : Applied index owner layout u t) : u.MethodsReaddressed packedBase t := by
  obtain ⟨u₁, v, new, hrewritten, hpool, hmethods, hsuper, hmoved⟩ := h.exists_rewritten
  refine ClassFile.methodsReaddressed_of_moved hresolved (hrewritten.pool.trans hpool) hsuper
    (hrewritten.methods.imp fun m m' hm => ?_) hmethods hmoved
  exact (Edit.readdressed_of_accesses hrewritten.pool hm).widen (.refl _) hpool

namespace ClassFile

variable {versions : VersionRange} {index : TypeIndex} {settings : Settings} {u : ClassFile}
  {b : Bytes} {r : Woven}

/-- **Weaving readdresses the methods that a unit had.** -/
theorem methodsReaddressed_of_weave (hresolved : u.Resolved)
    (h : u.weave index settings = .ok (some r)) :
    u.MethodsReaddressed r.strategy.base r.unit := by
  obtain ⟨_, -, -, hs, -, -, -, hgives, -⟩ := weave_eq_ok h
  obtain ⟨v, happlied, ⟨hnone, -⟩ | ⟨-, hmarked⟩⟩ := Edit.gives_weaveBy hgives
  · exact absurd hnone hs
  have hv : u.MethodsReaddressed r.strategy.base v := by
    generalize r.strategy = s at hs happlied
    cases s with
    | none => exact absurd rfl hs
    | pooled =>
      obtain ⟨-, owner, happlied⟩ := happlied
      exact happlied.methodsReaddressed hresolved
    | packed =>
      obtain ⟨owner, layout, -, happlied⟩ := happlied
      exact happlied.methodsReaddressed hresolved
  -- the marker leaves methods alone
  obtain ⟨_, _, _, -, hvq, -, -, hqt, -, heq⟩ := Edit.gives_markWoven hmarked
  have hmethods : r.unit.methods = v.methods := by rw [heq]
  refine ⟨hv.pool.trans (hvq.trans hqt), ?_⟩
  rw [hmethods]
  exact hv.methods.imp fun m m' hm => hm.widen (.refl _) (hvq.trans hqt)

end ClassFile

/-! ### New objects -/

/-- The constructor without arguments of a class. -/
def MemberRef.plainConstructor (owner : String) : MemberRef :=
  { owner, name := "<init>", descriptor := "()V" }

namespace Instruction

variable {p q : ConstantPool} {code : Bytes} {k : Nat} {created called called' : String}

/-- The slot of the class of which the instruction at the offset creates an object. -/
def createdAt? (code : Bytes) (k : Nat) : Option UInt16 :=
  match (code.drop k).take 3 with
  | [opcode, high, low] =>
    if opcode = Opcode.new then some (UInt16.ofNat (BigEndian.decode [high, low])) else none
  | _ => none

theorem getElem?_of_createdAt? {slot : UInt16} (h : createdAt? code k = some slot) :
    code[k]? = some Opcode.new := by
  unfold createdAt? at h
  split at h
  · rename_i opcode high low htake
    split_ifs at h with hnew
    have hhead : ((code.drop k).take 3)[0]? = some opcode := by rw [htake, List.getElem?_cons_zero]
    rwa [List.getElem?_take_of_lt (by decide), List.getElem?_drop, Nat.add_zero, hnew] at hhead
  · cases h

/-- Three instructions in a row from the offset on: an object of the class `created` is created,
its reference is copied, and the constructor without arguments of the class `called` is called for
it. -/
structure ConstructsAt (pool : ConstantPool) (code : Bytes) (k : Nat) (created called : String) :
    Prop where
  /-- The instructions start one behind the other. -/
  starts : MayStart code k ∧ MayStart code (k + 3) ∧ MayStart code (k + 4)
  /-- The first creates an object. -/
  creates : ∃ slot, createdAt? code k = some slot ∧ pool.className slot = .ok created
  /-- The second copies its reference. -/
  copies : code[k + 3]? = some Opcode.dup
  /-- The third calls a constructor. -/
  calls : CallsAt pool code (k + 4) (.plainConstructor called)

instance (pool : ConstantPool) (code : Bytes) (k : Nat) (created called : String) :
    Decidable (ConstructsAt pool code k created called) :=
  decidable_of_iff ((MayStart code k ∧ MayStart code (k + 3) ∧ MayStart code (k + 4)) ∧
      (∃ slot ∈ createdAt? code k, pool.className slot = .ok created) ∧
      code[k + 3]? = some Opcode.dup ∧ CallsAt pool code (k + 4) (.plainConstructor called))
    ⟨fun h => ⟨h.1, h.2.1, h.2.2.1, h.2.2.2⟩, fun h => ⟨h.starts, h.creates, h.copies, h.calls⟩⟩

theorem ConstructsAt.called_eq (h : ConstructsAt p code k created called)
    (h' : ConstructsAt p code k created called') : called = called' :=
  congrArg MemberRef.owner (h.calls.eq h'.calls)

/-- In a readdressed method the same objects are created, and the constructors called for them are
those of other classes. -/
theorem ConstructsAt.readdressed {f : MemberRef → MemberRef} {m m' : Member} {body body' : Code}
    (hpq : p.Extends q) (hm : m.Readdressed f p q m') (hbody : m.code? = some body)
    (hbody' : m'.code? = some body')
    (hf : f (.plainConstructor called) = .plainConstructor called')
    (h : ConstructsAt p body.instructions k created called) :
    ConstructsAt q body'.instructions k created called' := by
  obtain ⟨body'', hcode, hretouched⟩ := hm.retouched.exists_body hbody
  obtain rfl := Option.some.inj (hbody'.symm.trans hcode)
  obtain ⟨⟨hfirst, hsecond, hthird⟩, ⟨slot, hslot, hclass⟩, hcopies, hcalls⟩ := h
  refine ⟨⟨hretouched.mayStart_iff.2 hfirst, hretouched.mayStart_iff.2 hsecond,
    hretouched.mayStart_iff.2 hthird⟩, ⟨slot, ?_, hpq.className hclass⟩, ?_, ?_⟩
  · have hnew : Opcode.new ∉ swapped := by decide
    rw [createdAt?, hretouched.take_drop hfirst (getElem?_of_createdAt? hslot) rfl hnew]
    exact hslot
  · have hdup : Opcode.dup ∉ swapped := by decide
    exact (hretouched.getElem?_eq hsecond hcopies rfl hdup Nat.one_pos).trans hcopies
  · rw [← hf]
    exact hm.calls body body' hbody hbody' _ _ hthird hcalls

end Instruction

open Instruction (ConstructsAt)

namespace ClassFile

variable {versions : VersionRange} {index : TypeIndex} {settings : Settings} {u : ClassFile}
  {b : Bytes} {r : Woven}

/-- In the method of the unit, the call of a constructor for an object of the class `created` is
taken for one for the superclass: the method is a constructor, and the class is the superclass. -/
def TakenForSuperCall (u : ClassFile) (m : Member) (created : String) : Prop :=
  u.superName? = .ok (some plainBase) ∧ m.nameIn u.pool = .ok "<init>" ∧ created = plainBase

instance (u : ClassFile) (m : Member) (created : String) :
    Decidable (u.TakenForSuperCall m created) :=
  inferInstanceAs (Decidable (_ ∧ _ ∧ _))

theorem readdress_plainConstructor (u : ClassFile) (base : String) (m : Member)
    (created : String) : u.readdress base m (.plainConstructor created) =
      .plainConstructor (if u.TakenForSuperCall m created then base else created) := by
  by_cases hmoved : u.superName? = .ok (some plainBase) ∧ m.nameIn u.pool = .ok "<init>"
  · have htaken : u.TakenForSuperCall m created ↔ created = plainBase :=
      ⟨fun h => h.2.2, fun h => ⟨hmoved.1, hmoved.2, h⟩⟩
    rw [readdress, if_pos hmoved]
    simp only [MemberRef.moved, MemberRef.plainConstructor, and_true, htaken]
    split_ifs <;> rfl
  · have hnot : ¬ u.TakenForSuperCall m created := fun h => hmoved ⟨h.1, h.2.1⟩
    rw [readdress, if_neg hmoved, if_neg hnot]
    rfl

/-- **Which class constructs the objects of a woven unit.**  Wherever a body of the unit that was
read creates an object and calls the constructor of its class, the woven body creates an object of
the same class.  It calls the constructor of that class, except in the constructors of a unit that
extends the plain base class: there an object of that class is constructed by the new base class. -/
theorem constructed_of_weave (hread : read versions b = .ok u)
    (h : u.weave index settings = .ok (some r)) :
    List.Forall₂ (fun m m' => ∀ body, m.code? = some body → ∃ body', m'.code? = some body' ∧
      ∀ k created, ConstructsAt u.pool body.instructions k created created →
        ConstructsAt r.unit.pool body'.instructions k created
          (if u.TakenForSuperCall m created then r.strategy.base else created) ∧
        (ConstructsAt r.unit.pool body'.instructions k created created ↔
          ¬ u.TakenForSuperCall m created))
      u.methods (r.unit.methods.take u.methods.length) := by
  obtain ⟨_, -, -, hs, -⟩ := weave_eq_ok h
  obtain ⟨hpool, hmethods⟩ := methodsReaddressed_of_weave (Sound.of_read hread).names h
  refine hmethods.imp fun m m' hm body hbody => ?_
  obtain ⟨body', hbody', -⟩ := hm.retouched.exists_body hbody
  refine ⟨body', hbody', fun k created hcreated => ?_⟩
  have hwoven :=
    hcreated.readdressed hpool hm hbody hbody' (u.readdress_plainConstructor _ m created)
  refine ⟨hwoven, fun hsame htaken => ?_, fun hnot => ?_⟩
  · rw [if_pos htaken] at hwoven
    exact Strategy.base_ne hs ((hwoven.called_eq hsame).trans htaken.2.2)
  · rwa [if_neg hnot] at hwoven

/-- A constructor that creates a component behind the call for the superclass. -/
def makingConstructor : Member :=
  { access := 1, name := 5, descriptor := 6, attributes := [.code 9
    ⟨2, 1, [42, 183, 0, 8, 187, 0, 4, 89, 183, 0, 8, 87, 177], [], []⟩] }

/-- A method that creates a component. -/
def makingMethod : Member :=
  { access := 1, name := 12, descriptor := 6, attributes := [.code 9
    ⟨2, 1, [187, 0, 4, 89, 183, 0, 8, 87, 177], [], []⟩] }

/-- A component with both of them. -/
def makingComponents : ClassFile :=
  { minor := 0, major := 52,
    pool := ⟨#[none, some (.utf8 "A"), some (.classInfo 1), some (.utf8 "com/artemis/Component"),
      some (.classInfo 3), some (.utf8 "<init>"), some (.utf8 "()V"), some (.nameAndType 5 6),
      some (.methodRef 4 7), some (.utf8 "Code"), some (.utf8 "RuntimeInvisibleAnnotations"),
      some (.utf8 "Lcom/artemis/annotations/PooledWeaver;"), some (.utf8 "make")]⟩,
    access := 0x21, thisClass := 2, superClass := 4, interfaces := [], fields := [],
    methods := [makingConstructor, makingMethod],
    attributes := [.annotations 10 [{ type := 11, elements := [] }]] }

/-- When it is pooled, the one in its constructor is constructed by the pooled base class, and the
one in the method as before. -/
theorem constructed_of_weave_makingComponents :
    ∃ b r m m' body body', read {} b = .ok makingComponents ∧
      makingComponents.weave .empty {} = .ok (some r) ∧ r.unit.methods.take 2 = [m, m'] ∧
      m.code? = some body ∧ m'.code? = some body' ∧
      ConstructsAt r.unit.pool body.instructions 4 plainBase pooledBase ∧
      ¬ ConstructsAt r.unit.pool body.instructions 4 plainBase plainBase ∧
      ConstructsAt r.unit.pool body'.instructions 0 plainBase plainBase := by
  obtain ⟨b, hread⟩ : ∃ b, read {} b = .ok makingComponents := exists_read (by decide +kernel)
  obtain ⟨r, hweave, hstrategy⟩ :
      ∃ r, makingComponents.weave .empty {} = .ok (some r) ∧ r.strategy = .pooled := by
    have hstrategy : Option.map Woven.strategy <$> makingComponents.weave .empty {} =
        .ok (some .pooled) := by decide +kernel
    exact except_map_some_eq_ok.1 hstrategy
  have hmethods := constructed_of_weave hread hweave
  obtain ⟨m, _, hm, hlater, htake⟩ := List.forall₂_cons_left_iff.1 hmethods
  obtain ⟨m', _, hm', hnone, rfl⟩ := List.forall₂_cons_left_iff.1 hlater
  cases hnone
  obtain ⟨body, hbody, hall⟩ := hm _ rfl
  obtain ⟨body', hbody', hall'⟩ := hm' _ rfl
  -- what the two bodies do before weaving
  have hfirst : ConstructsAt makingComponents.pool
      [42, 183, 0, 8, 187, 0, 4, 89, 183, 0, 8, 87, 177] 4 plainBase plainBase := by
    decide +kernel
  have hsecond : ConstructsAt makingComponents.pool [187, 0, 4, 89, 183, 0, 8, 87, 177] 0
      plainBase plainBase := by
    decide +kernel
  obtain ⟨hmoved, hnot⟩ := hall 4 plainBase hfirst
  obtain ⟨-, hstays⟩ := hall' 0 plainBase hsecond
  have htaken : makingComponents.TakenForSuperCall makingConstructor plainBase := by
    decide +kernel
  have huntaken : ¬ makingComponents.TakenForSuperCall makingMethod plainBase := by
    decide +kernel
  refine ⟨b, r, m, m', body, body', hread, hweave, htake, hbody, hbody', ?_,
    fun hsame => hnot.1 hsame htaken, hstays.2 huntaken⟩
  have hbase : r.strategy.base = pooledBase := by rw [hstrategy, Strategy.base]
  rwa [hbase, if_pos htaken] at hmoved

end ClassFile

end ClassWeave
