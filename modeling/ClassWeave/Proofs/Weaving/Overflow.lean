import ClassWeave.Proofs.Weaving.Edit

/-!
# Computations that can only overflow

Whatever is gained needs constants, and the pool has room for so many.  Most computations that gain
something cannot fail for any other reason, and the slots that they take can be counted beforehand.
The branches of generated bodies would be another reason, so for bodies the bytes are counted, too.

* `Interning.Takes` : interning takes so many slots, and fails only if there are fewer left.
* `Emission.Short` : so does emitting a few bytes to a short body, branches included.
* `Growing.Takes` : so does gaining members with such bodies.
-/

namespace ClassWeave

variable {α β : Type} {p q : ConstantPool} {cause : Malformation} {k n : Nat}

/-- The pool is full: it has not as many slots left. -/
def ConstantPool.Lacks (p : ConstantPool) (n : Nat) (cause : Malformation) : Prop :=
  cause = .poolOverflow ∧ maxSlots < p.size + n

theorem ConstantPool.Lacks.mono (h : p.Lacks n cause) (hle : p.size + n ≤ q.size + k) :
    q.Lacks k cause :=
  ⟨h.1, Nat.lt_of_lt_of_le h.2 hle⟩

/-! ### Constants -/

namespace Interning

/-- The computation takes at most `n` slots of the pool, and fails only if there are fewer left. -/
structure Takes (n : Nat) (act : Interning α) : Prop where
  /-- The slots that are taken. -/
  size : ∀ p a q, Gives act p a q → q.size ≤ p.size + n
  /-- The reason for failing. -/
  lacks : ∀ p cause, Fails act p cause → p.Lacks n cause

variable {owner name descriptor : String}

theorem Takes.bind {act : Interning α} {f : α → Interning β} (h : Takes k act)
    (hf : ∀ a, Takes n (f a)) : Takes (n + k) (act >>= f) := by
  constructor
  · intro p b q hgives
    obtain ⟨a, m, hact, hrest⟩ := gives_bind.1 hgives
    have hfirst := h.size p a m hact
    have hthen := (hf a).size m b q hrest
    omega
  · intro p cause hfails
    rcases fails_bind.1 hfails with hact | ⟨a, m, hact, hrest⟩
    · exact (h.lacks p cause hact).mono (by omega)
    · have hfirst := h.size p a m hact
      exact ((hf a).lacks m cause hrest).mono (by omega)

theorem takes_pure (a : α) : Takes 0 (pure a) := by
  constructor
  · intro p b q hgives
    obtain ⟨-, rfl⟩ := gives_pure.1 hgives
    exact Nat.le_refl _
  · exact fun _ _ hfails => absurd hfails not_fails_pure

/-- A value that is not refused. -/
theorem Takes.lift {e : Except Malformation α} {a : α} {f : α → Interning β} (he : e = .ok a)
    (hf : Takes n (f a)) : Takes n ((liftM e : Interning α) >>= f) := by
  subst he
  exact hf

theorem takes_constant {c : Constant} (hc : c.width = 1) : Takes 1 (constant c) := by
  constructor
  · intro p i q hgives
    have hgives : p.insert c = (.ok i, q) := hgives
    obtain ⟨_, -, hp⟩ | ⟨-, -, hp⟩ | ⟨-, -, hp⟩ := ConstantPool.insert_cases p c
    all_goals
      rw [hp] at hgives
      cases hgives
    · exact Nat.le_add_right _ _
    · exact Nat.le_of_eq (hc ▸ ConstantPool.push_size p c)
  · intro p cause hfails
    have hfails : (p.insert c).1 = .error cause := hfails
    obtain ⟨_, -, hp⟩ | ⟨-, -, hp⟩ | ⟨-, hroom, hp⟩ := ConstantPool.insert_cases p c
    all_goals
      rw [hp] at hfails
      cases hfails
    exact ⟨rfl, hc ▸ hroom⟩

theorem takes_utf8 (text : String) : Takes 1 (utf8 text) := takes_constant rfl

theorem takes_classRef : Takes 2 (classRef name) :=
  (takes_utf8 name).bind fun _ => takes_constant rfl

theorem takes_nameAndType : Takes 3 (nameAndType name descriptor) :=
  (takes_utf8 name).bind fun _ => (takes_utf8 descriptor).bind fun _ => takes_constant rfl

theorem takes_fieldRef : Takes 6 (fieldRef owner name descriptor) :=
  takes_classRef.bind fun _ => takes_nameAndType.bind fun _ => takes_constant rfl

theorem takes_methodRef : Takes 6 (methodRef owner name descriptor) :=
  takes_classRef.bind fun _ => takes_nameAndType.bind fun _ => takes_constant rfl

end Interning

/-! ### Bodies -/

namespace Body

variable {b b' : Body} {start : Nat}

@[simp] theorem size_op (b : Body) (opcode : UInt8) (effect : Int) :
    (b.op opcode effect).code.size = b.code.size + 1 := by
  simp [op, emit, stack]

@[simp] theorem size_op8 (b : Body) (opcode operand : UInt8) (effect : Int) :
    (b.op8 opcode operand effect).code.size = b.code.size + 2 := by
  simp [op8, emit, stack]

@[simp] theorem size_op16 (b : Body) (opcode : UInt8) (operand : UInt16) (effect : Int) :
    (b.op16 opcode operand effect).code.size = b.code.size + 3 := by
  simp [op16, emit, stack]

theorem size_patch (h : b.patch start = .ok b') : b'.code.size = b.code.size := by
  unfold patch at h
  simp only at h
  split_ifs at h
  cases h
  simp

/-- In a short body every branch is within reach. -/
theorem exists_patch (hstart : start + 3 ≤ b.code.size) (hshort : b.code.size < 2 ^ 15) :
    ∃ b', b.patch start = .ok b' := by
  have hfar : start ≤ farthestStart := by
    have hlimit : 2 ^ 15 ≤ farthestStart := by decide
    omega
  have hdistance : ((b.position : Int) - (min start farthestStart : Nat)) =
      b.code.size - start := by
    rw [position, Nat.min_eq_left hfar]
  unfold patch
  simp only [hdistance]
  rw [if_neg (by omega), if_pos (by rwa [position])]
  exact ⟨_, rfl⟩

end Body

namespace Emission

open Interning (Takes)

/-- The computation appends at most `bytes` bytes and takes at most `slots` slots of the pool.  As
long as a branch can lead from every place of the body to every other, it fails only if there are
fewer slots left. -/
structure Short (bytes slots : Nat) (act : Emission α) : Prop where
  /-- The bytes that are appended. -/
  code : ∀ b p a b' q, Gives (act.run b) p (a, b') q →
    b.code.size ≤ b'.code.size ∧ b'.code.size ≤ b.code.size + bytes
  /-- The slots that are taken. -/
  size : ∀ b p a b' q, Gives (act.run b) p (a, b') q → q.size ≤ p.size + slots
  /-- The reason for failing. -/
  lacks : ∀ b p cause, b.code.size + bytes < 2 ^ 15 → Fails (act.run b) p cause →
    p.Lacks slots cause

variable {i j : Nat}

theorem Short.bind {act : Emission α} {f : α → Emission β} (h : Short k i act)
    (hf : ∀ a, Short n j (f a)) : Short (n + k) (j + i) (act >>= f) := by
  constructor
  · intro b p c b' q hrun
    rw [StateT.run_bind] at hrun
    obtain ⟨⟨a, m⟩, r, ha, hc⟩ := gives_bind.1 hrun
    have hfirst := h.code b p a m r ha
    have hthen := (hf a).code m r c b' q hc
    omega
  · intro b p c b' q hrun
    rw [StateT.run_bind] at hrun
    obtain ⟨⟨a, m⟩, r, ha, hc⟩ := gives_bind.1 hrun
    have hfirst := h.size b p a m r ha
    have hthen := (hf a).size m r c b' q hc
    omega
  · intro b p cause hshort hrun
    rw [StateT.run_bind] at hrun
    rcases fails_bind.1 hrun with hact | ⟨⟨a, m⟩, r, ha, hrest⟩
    · exact (h.lacks b p cause (by omega) hact).mono (by omega)
    · have hfirst := h.code b p a m r ha
      have htaken := h.size b p a m r ha
      exact ((hf a).lacks m r cause (by omega) hrest).mono (by omega)

theorem short_pure (a : α) : Short 0 0 (pure a : Emission α) := by
  have hruns : ∀ b p a' b' q, Gives ((pure a : Emission α).run b) p (a', b') q →
      b' = b ∧ q = p := by
    intro b p a' b' q hrun
    obtain ⟨heq, rfl⟩ := gives_pure.1 hrun
    cases heq
    exact ⟨rfl, rfl⟩
  constructor
  · intro b p a' b' q hrun
    obtain ⟨rfl, -⟩ := hruns b p a' b' q hrun
    exact ⟨Nat.le_refl _, Nat.le_refl _⟩
  · intro b p a' b' q hrun
    obtain ⟨-, rfl⟩ := hruns b p a' b' q hrun
    exact Nat.le_refl _
  · exact fun _ _ _ _ hrun => absurd hrun not_fails_pure

/-- Interning appends nothing. -/
theorem short_interning {act : Interning α} (h : Takes i act) :
    Short 0 i (liftM act : Emission α) := by
  constructor
  · intro b p a b' q hrun
    obtain ⟨-, rfl⟩ := gives_liftM.1 hrun
    exact ⟨Nat.le_refl _, Nat.le_refl _⟩
  · intro b p a b' q hrun
    exact h.size p a q (gives_liftM.1 hrun).1
  · intro b p cause _ hrun
    have hbind : Fails (act >>= fun a => pure (a, b)) p cause := hrun
    rcases fails_bind.1 hbind with hact | ⟨_, _, -, hpure⟩
    · exact h.lacks p cause hact
    · exact absurd hpure not_fails_pure

theorem Short.interning {act : Interning α} {f : α → Emission β} (h : Takes i act)
    (hf : ∀ a, Short n j (f a)) : Short n (j + i) ((liftM act : Emission α) >>= f) :=
  (short_interning h).bind hf

/-- A value that is not refused. -/
theorem Short.lift {e : Except Malformation α} {a : α} {f : α → Emission β} (he : e = .ok a)
    (hf : Short n j (f a)) : Short n j ((liftM e : Emission α) >>= f) := by
  subst he
  exact hf

/-- Instructions that need nothing of the pool. -/
theorem short_emit {f : Body → Body}
    (h : ∀ b, b.code.size ≤ (f b).code.size ∧ (f b).code.size ≤ b.code.size + k) :
    Short k 0 (emit f) := by
  have hruns : ∀ b p a b' q, Gives ((emit f).run b) p (a, b') q → b' = f b ∧ q = p := by
    intro b p a b' q hgives
    obtain ⟨heq, rfl⟩ := gives_pure.1 hgives
    exact ⟨congrArg Prod.snd heq, rfl⟩
  constructor
  · intro b p a b' q hgives
    obtain ⟨rfl, -⟩ := hruns b p a b' q hgives
    exact h b
  · intro b p a b' q hgives
    obtain ⟨-, rfl⟩ := hruns b p a b' q hgives
    exact Nat.le_refl _
  · exact fun _ _ _ _ hfails => absurd hfails not_fails_pure

theorem short_op {opcode : UInt8} {effect : Int} : Short 3 0 (op opcode effect) :=
  short_emit fun b => by simp

theorem short_op16 {opcode : UInt8} {operand : UInt16} {effect : Int} :
    Short 3 0 (op16 opcode operand effect) :=
  short_emit fun b => by simp

theorem short_this : Short 3 0 this := short_op

theorem short_loadParameter (kind : ValueKind) : Short 3 0 (emit (·.loadParameter kind)) :=
  short_emit fun b => by cases kind <;> simp [Body.loadParameter]

theorem short_returnValue (kind? : Option ValueKind) :
    Short 3 0 (emit (·.returnValue kind?)) := by
  refine short_emit fun b => ?_
  cases kind? with
  | none => simp [Body.returnValue]
  | some kind => cases kind <;> simp [Body.returnValue]

theorem Short.mono {act : Emission α} (h : Short k i act) (hslots : i ≤ j) : Short k j act := by
  refine ⟨h.code, fun b p a b' q hgives => ?_, fun b p cause hshort hfails => ?_⟩
  · exact Nat.le_trans (h.size b p a b' q hgives) (by omega)
  · exact (h.lacks b p cause hshort hfails).mono (by omega)

/-- An integer may be a constant of the pool. -/
theorem short_pushInt (value : Int32) : Short 3 1 (pushInt value) := by
  have hconstant : Takes 1 (Interning.integer value) := Interning.takes_constant rfl
  unfold pushInt
  simp only
  split
  · exact short_op.mono (by omega)
  split
  · exact (short_emit fun b => by simp).mono (by omega)
  split
  · exact short_op16.mono (by omega)
  · exact .interning hconstant fun _ => short_op16

/-- An instruction in front of others. -/
theorem Short.step {act : Emission α} {f : α → Emission β} (h : Short 3 i act)
    (hf : ∀ a, Short n j (f a)) : Short (n + 3) (j + i) (act >>= f) :=
  h.bind hf

theorem not_fails_patch {b b' : Body} {start : Nat} (h : b.patch start = .ok b') :
    ¬ Fails ((patch start).run b) p cause := by
  have hrun : (patch start).run b = (pure ((), b') : Interning (Unit × Body)) := by
    simp only [patch, StateT.run_bind, StateT.run_get, pure_bind, h]
    rfl
  rw [hrun]
  exact not_fails_pure

/-- What a run that skips instructions goes through. -/
theorem gives_skipping {test : Test} {act : Emission Unit} {b b' : Body} {target : Nat}
    (h : Gives ((skipping test act).run b) p (target, b') q) : ∃ a m,
      Gives (act.run (b.branch test.opcode test.effect)) p (a, m) q ∧
        b'.code.size = m.code.size := by
  simp only [Emission.skipping, StateT.run_bind] at h
  obtain ⟨⟨start, b₁⟩, q₁, hbranch, h₁⟩ := gives_bind.1 h
  obtain ⟨⟨a, b₂⟩, q₂, hact, h₂⟩ := gives_bind.1 h₁
  obtain ⟨⟨_, b₃⟩, q₃, hposition, h₃⟩ := gives_bind.1 h₂
  obtain ⟨⟨_, b₄⟩, q₄, hpatch, h₄⟩ := gives_bind.1 h₃
  obtain ⟨-, rfl, rfl⟩ := gives_branch.1 hbranch
  obtain ⟨-, rfl, rfl⟩ := gives_position.1 hposition
  obtain ⟨hpatched, rfl⟩ := gives_patch.1 hpatch
  obtain ⟨heq, rfl⟩ := gives_pure.1 h₄
  cases heq
  exact ⟨a, b₃, hact, Body.size_patch hpatched⟩

/-- **Skipped instructions.**  The branch that skips them is within reach. -/
theorem Short.skipping {test : Test} {act : Emission Unit} (h : Short k i act) :
    Short (k + 3) i (skipping test act) := by
  have hbranch (b : Body) :
      (b.branch test.opcode test.effect).code.size = b.code.size + 3 := b.size_op16 _ _ _
  constructor
  · intro b p target b' q hrun
    obtain ⟨a, m, hact, hsize⟩ := gives_skipping hrun
    have hinner := h.code _ p a m q hact
    rw [hbranch] at hinner
    omega
  · intro b p target b' q hrun
    obtain ⟨a, m, hact, -⟩ := gives_skipping hrun
    exact h.size _ p a m q hact
  · intro b p cause hshort hrun
    simp only [Emission.skipping, StateT.run_bind] at hrun
    rcases fails_bind.1 hrun with hfails | ⟨⟨start, b₁⟩, q₁, hgives, h₁⟩
    · exact absurd hfails not_fails_pure
    obtain ⟨rfl, rfl, rfl⟩ := gives_branch.1 hgives
    have hfirst := hbranch b
    rcases fails_bind.1 h₁ with hact | ⟨⟨a, b₂⟩, q₂, hact, h₂⟩
    · exact h.lacks (b.branch test.opcode test.effect) q₁ cause (by omega) hact
    have hinner := h.code (b.branch test.opcode test.effect) q₁ a b₂ q₂ hact
    rcases fails_bind.1 h₂ with hposition | ⟨⟨_, b₃⟩, q₃, hposition, h₃⟩
    · exact absurd hposition not_fails_pure
    obtain ⟨-, rfl, -⟩ := gives_position.1 hposition
    -- the branch lies in front of what it skips, and all of it is short
    have hbehind : b.code.size + 3 ≤ b₃.code.size := by omega
    obtain ⟨b₄, hpatch⟩ := Body.exists_patch hbehind (by omega)
    rcases fails_bind.1 h₃ with hfails | ⟨_, _, -, h₄⟩
    · exact absurd hfails (not_fails_patch hpatch)
    · exact absurd h₄ not_fails_pure

/-- Skipped instructions in front of others. -/
theorem Short.skippingThen {test : Test} {act : Emission Unit} {f : Nat → Emission β}
    (h : Short k i act) (hf : ∀ target, Short n j (f target)) :
    Short (n + (k + 3)) (j + i) (Emission.skipping test act >>= f) :=
  h.skipping.bind hf

end Emission

/-! ### Members -/

namespace Growing

variable {g : Growth}

/-- Started with the growth `g` and the pool `p`, the computation fails. -/
def Stops (act : Growing α) (g : Growth) (p : ConstantPool) (cause : Malformation) : Prop :=
  (Id.run ((act.run g).run p)).1.1 = .error cause

theorem stops_bind {act : Growing α} {f : α → Growing β} :
    Stops (act >>= f) g p cause ↔
      Stops act g p cause ∨ ∃ a m r, Gains act g p a m r ∧ Stops (f a) m r cause := by
  unfold Stops Gains
  rw [run_bind]
  rcases Id.run ((act.run g).run p) with ⟨⟨found | a, m⟩, r⟩
  · constructor
    · intro h
      cases h
      exact .inl rfl
    · rintro (h | ⟨a, m, r, h, -⟩)
      · cases h
        rfl
      · cases h
  · constructor
    · exact fun h => .inr ⟨a, m, r, rfl, h⟩
    · rintro (h | ⟨a', m', r', heq, h⟩)
      · cases h
      · cases heq
        exact h

theorem not_stops_pure {a : α} : ¬ Stops (pure a : Growing α) g p cause := by
  show ¬ (.ok a : Except Malformation α) = .error cause
  simp

/-- The computation takes at most `n` slots of the pool, and fails only if there are fewer left. -/
structure Takes (n : Nat) (act : Growing α) : Prop where
  /-- The slots that are taken. -/
  size : ∀ g p a g' q, Gains act g p a g' q → q.size ≤ p.size + n
  /-- The reason for failing. -/
  lacks : ∀ g p cause, Stops act g p cause → p.Lacks n cause

/-- What follows may count on what the first computation gives. -/
theorem Takes.bind_of_gains {act : Growing α} {f : α → Growing β} (h : Takes k act)
    (hf : ∀ g p a g' q, Gains act g p a g' q → Takes n (f a)) : Takes (n + k) (act >>= f) := by
  constructor
  · intro g p b g' q hgains
    obtain ⟨a, m, r, hact, hrest⟩ := gains_bind.1 hgains
    have hfirst := h.size g p a m r hact
    have hthen := (hf g p a m r hact).size m r b g' q hrest
    omega
  · intro g p cause hstops
    rcases stops_bind.1 hstops with hact | ⟨a, m, r, hact, hrest⟩
    · exact (h.lacks g p cause hact).mono (by omega)
    · have hfirst := h.size g p a m r hact
      exact ((hf g p a m r hact).lacks m r cause hrest).mono (by omega)

theorem Takes.bind {act : Growing α} {f : α → Growing β} (h : Takes k act)
    (hf : ∀ a, Takes n (f a)) : Takes (n + k) (act >>= f) :=
  h.bind_of_gains fun _ _ a _ _ _ => hf a

theorem Takes.mono {act : Growing α} (h : Takes k act) (hle : k ≤ n) : Takes n act := by
  refine ⟨fun g p a g' q hgains => ?_, fun g p cause hstops => ?_⟩
  · exact Nat.le_trans (h.size g p a g' q hgains) (by omega)
  · exact (h.lacks g p cause hstops).mono (by omega)

theorem takes_pure (a : α) : Takes 0 (pure a : Growing α) := by
  refine ⟨fun g p b g' q hgains => ?_, fun _ _ _ hstops => absurd hstops not_stops_pure⟩
  obtain ⟨-, -, rfl⟩ := gains_pure.1 hgains
  exact Nat.le_refl _

/-- A value that is not refused. -/
theorem Takes.lift {e : Except Malformation α} {a : α} {f : α → Growing β} (he : e = .ok a)
    (hf : Takes n (f a)) : Takes n ((liftM e : Growing α) >>= f) := by
  subst he
  exact hf

theorem takes_interning {act : Interning α} (h : Interning.Takes n act) :
    Takes n (interning act) :=
  ⟨fun _ p a _ q hgains => h.size p a q (gains_interning.1 hgains).1,
    fun _ p cause hstops => h.lacks p cause hstops⟩

/-- A short body, and what follows may count on how it was written. -/
theorem Takes.emission {bytes : Nat} {act : Emission α} {f : α × Body → Growing β}
    (h : Emission.Short bytes k act) (hbytes : bytes < 2 ^ 15)
    (hf : ∀ p a body q, Gives (act.run {}) p (a, body) q → Takes n (f (a, body))) :
    Takes (n + k) (emission act >>= f) := by
  have hempty : ({} : Body).code.size = 0 := rfl
  have hwriting : Interning.Takes k (act.run {}) :=
    ⟨fun p result q hgives => h.size {} p result.1 result.2 q hgives,
      fun p cause => h.lacks {} p cause (by omega)⟩
  exact (takes_interning hwriting).bind_of_gains fun g p result g' q hgains =>
    hf p result.1 result.2 q (gains_interning.1 hgains).1

theorem takes_modify (f : Growth → Growth) : Takes 0 (modifyThe Growth f : Growing Unit) := by
  refine ⟨fun g p a g' q hgains => ?_, fun g p cause hstops => ?_⟩
  · obtain ⟨-, rfl⟩ := gains_modify.1 hgains
    exact Nat.le_refl _
  · have hok : (.ok () : Except Malformation Unit) = .error cause := hstops
    cases hok

theorem takes_get : Takes 0 (getThe Growth : Growing Growth) := by
  refine ⟨fun g p a g' q hgains => ?_, fun g p cause hstops => ?_⟩
  · have hrun : (((.ok g, g), p) : (Except Malformation Growth × Growth) × ConstantPool) =
      ((.ok a, g'), q) := hgains
    cases hrun
    exact Nat.le_refl _
  · have hok : (.ok g : Except Malformation Growth) = .error cause := hstops
    cases hok

theorem takes_forM {γ : Type} {f : γ → Growing Unit} {cs : List γ}
    (h : ∀ c ∈ cs, Takes n (f c)) : Takes (n * cs.length) (cs.forM f) := by
  induction cs with
  | nil => exact takes_pure _
  | cons c cs ih =>
    rw [List.forall_mem_cons] at h
    rw [List.length_cons, Nat.mul_succ]
    exact h.1.bind fun _ => ih h.2

section

variable {access : Access} {name descriptor : String} {attributes : List Attribute} {body : Body}
  {maxLocals : UInt16} {frames? : Option Bytes}

theorem takes_addField : Takes 2 (addField access name descriptor attributes) := by
  refine (takes_interning (Interning.takes_utf8 name)).bind fun _ => ?_
  exact (takes_interning (Interning.takes_utf8 descriptor)).bind fun _ => takes_modify _

theorem takes_framesAttribute : Takes 1 (framesAttribute frames?) := by
  cases frames? with
  | none => exact (takes_pure _).mono (Nat.zero_le 1)
  | some frames =>
    refine takes_get.bind fun g => ?_
    split
    · exact (takes_interning (Interning.takes_utf8 _)).bind fun _ => takes_pure _
    · exact (takes_pure _).mono (Nat.zero_le 1)

theorem takes_addMethod :
    Takes 4 (addMethod access name descriptor body maxLocals frames?) := by
  refine takes_framesAttribute.bind fun _ => ?_
  refine (takes_interning (Interning.takes_utf8 Attribute.codeName)).bind fun _ => ?_
  refine (takes_interning (Interning.takes_utf8 name)).bind fun _ => ?_
  exact (takes_interning (Interning.takes_utf8 descriptor)).bind fun _ => takes_modify _

end

end Growing

end ClassWeave
