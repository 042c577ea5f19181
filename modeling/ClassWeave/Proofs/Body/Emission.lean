import ClassWeave.Body.Emission
import ClassWeave.Proofs.Machine.Code

/-!
# What is emitted

A computation that emits code appends its bytes to the body and grows the pool, and the bytes are
decoded to the same code in every pool that grows out of it.  It keeps count of the operand stack by
what the instructions of the code add to its depth.

* `Emission.Writes`, `Emits` : the code that a computation emits whenever it succeeds.
* `Emission.writes_bind`, `emits_bind`, `writes_interning` : computations in a row.
* `Emission.writes_skipping` : instructions that are skipped when a test succeeds.
* `Emission.emits_pushDefault`, `emits_loadParameter`, `emits_returnValue` : the instruction that
  fits a kind of value.
* `Emission.emits_pushInt` : whatever instruction pushes an integer, it pushes that integer.
-/

namespace ClassWeave

namespace Body

/-- The depth of the operand stack, and the greatest depth so far. -/
def depths (b : Body) : Int × Int := (b.depth, b.deepest)

/-- The two depths after one of them changes. -/
def track (depths : Int × Int) (effect : Int) : Int × Int :=
  (depths.1 + effect, max depths.2 (depths.1 + effect))

/-- The distance of a branch behind code that is as long as it may be can still be measured. -/
def HasRoom (b : Body) (code : List Piece) : Prop :=
  (∀ piece ∈ code, piece.isPlain = true) ∨ b.code.size + Piece.spanOf code ≤ farthestStart

theorem HasRoom.left {b : Body} {code code' : List Piece} (h : b.HasRoom (code ++ code')) :
    b.HasRoom code := by
  rw [HasRoom, Piece.spanOf_append] at h
  rcases h with hplain | hroom
  · exact .inl fun piece hpiece => hplain piece (List.mem_append_left code' hpiece)
  · exact .inr (by omega)

theorem HasRoom.right {b b' : Body} {code code' : List Piece} (h : b.HasRoom (code ++ code'))
    (hsize : b'.code.size ≤ b.code.size + Piece.spanOf code) : b'.HasRoom code' := by
  rw [HasRoom, Piece.spanOf_append] at h
  rcases h with hplain | hroom
  · exact .inl fun piece hpiece => hplain piece (List.mem_append_right code hpiece)
  · exact .inr (by omega)

/-- Pointing a branch behind the instructions that follow it changes its distance and no more. -/
theorem patch_eq_ok {b b' : Body} {front inside : Bytes} {opcode : UInt8}
    (hcode : b.code.toList = front ++ ((Op.half opcode 0).bytes ++ inside))
    (hfront : front.length ≤ farthestStart) (h : b.patch front.length = .ok b') :
    3 + inside.length < 2 ^ 15 ∧ b'.depths = b.depths ∧ b'.code.toList =
      front ++ ((Op.half opcode (UInt16.ofNat (3 + inside.length))).bytes ++ inside) := by
  have hsize : b.code.size = front.length + (3 + inside.length) := by
    rw [← Array.length_toList, hcode]
    simp [Op.bytes, bytes16, BigEndian.encode]
    omega
  have hdistance : ((b.position : Int) - (min front.length farthestStart : Nat)) =
      (3 + inside.length : Nat) := by
    rw [position, hsize, Nat.min_eq_left hfront]
    omega
  unfold patch at h
  simp only [hdistance] at h
  split at h
  · cases h
  rename_i hrange
  rw [if_pos (by rw [position, hsize]; omega)] at h
  cases h
  refine ⟨by omega, rfl, ?_⟩
  have hword : ((((3 + inside.length : Nat) : Int) % 65536).toNat) = 3 + inside.length := by omega
  rw [hword]
  -- the two bytes of the distance lie right behind the opcode
  have hset (k : Nat) (byte : UInt8) (back : Bytes) :
      (front ++ back).set (front.length + k) byte = front ++ back.set k byte := by
    rw [List.set_append_right _ _ (Nat.le_add_right _ _), Nat.add_sub_cancel_left]
  have hhalf : (UInt16.ofNat (3 + inside.length)).toNat = 3 + inside.length :=
    toNat_ofNat_half (by omega)
  simp only [Array.toList_setIfInBounds, hcode, hset, Op.bytes, bytes16, BigEndian.encode, hhalf]
  rfl

end Body

namespace Emission

variable {α β : Type} {p q : ConstantPool} {code code' : List Piece}

/-- From every pool that extends `p`, a successful run extends the pool, and appends the bytes of
`code`.  What it yields and where the branches of the code lead satisfy `post`. -/
def Writes (p : ConstantPool) (act : Emission α) (code : List Piece)
    (post : α → List Nat → Prop) : Prop :=
  ∀ q b a b' r, p.Extends q → b.HasRoom code → Gives (act.run b) q (a, b') r →
    q.Extends r ∧ ∃ bs targets, Located r b.code.size code bs targets ∧
      b'.code.toList = b.code.toList ++ bs ∧ post a targets ∧
      b'.depths = (Piece.effectsOf code).foldl Body.track b.depths

/-- The same for code without branches. -/
abbrev Emits (p : ConstantPool) (act : Emission α) (code : List Piece) : Prop :=
  Writes p act code fun _ targets => targets = []

/-- Started in an empty body, what is emitted is the whole body. -/
theorem Writes.whole {act : Emission α} {post : α → List Nat → Prop} (h : Writes p act code post)
    (hroom : Body.HasRoom {} code) {result : α × Body} (hrun : Gives (act.run {}) p result q) :
    p.Extends q ∧ ∃ targets, Located q 0 code result.2.code.toList targets ∧
      post result.1 targets ∧
      result.2.depths = (Piece.effectsOf code).foldl Body.track (0, 0) := by
  obtain ⟨hpq, bs, targets, hbs, hcode, hpost, hdepths⟩ :=
    h p {} result.1 result.2 q (.refl p) hroom hrun
  have hnil : ({} : Body).code.toList = [] := rfl
  rw [hnil, List.nil_append] at hcode
  exact ⟨hpq, targets, hcode ▸ hbs, hpost, hdepths⟩

theorem writes_bind {act : Emission α} {f : α → Emission β} {post : α → List Nat → Prop}
    {post' : β → List Nat → Prop} (h : Writes p act code post)
    (hf : ∀ a targets, post a targets →
      Writes p (f a) code' fun c targets' => post' c (targets ++ targets')) :
    Writes p (act >>= f) (code ++ code') post' := by
  intro q b c b' r hq hroom hrun
  rw [StateT.run_bind] at hrun
  obtain ⟨⟨a, m⟩, s, ha, hc⟩ := gives_bind.1 hrun
  obtain ⟨hqs, bs, targets, hbs, hm, hpost, hdepths⟩ := h q b a m s hq hroom.left ha
  -- the first code takes at most its span, so the second still has room
  have hsize : m.code.size = b.code.size + bs.length := by
    rw [← Array.length_toList, hm, List.length_append, Array.length_toList]
  have hlen := hbs.encodes.length_le
  obtain ⟨hsr, bs', targets', hbs', hb', hpost', hdepths'⟩ :=
    hf a targets hpost s m c b' r (hq.trans hqs) (hroom.right (by omega)) hc
  rw [hsize] at hbs'
  refine ⟨hqs.trans hsr, bs ++ bs', targets ++ targets', (hbs.mono hsr).append hbs', ?_, hpost', ?_⟩
  · rw [hb', hm, List.append_assoc]
  · rw [hdepths', hdepths, Piece.effectsOf_append, List.foldl_append]

theorem emits_bind {act : Emission α} {f : α → Emission β} {post : β → List Nat → Prop}
    (h : Emits p act code) (hf : ∀ a, Writes p (f a) code' post) :
    Writes p (act >>= f) (code ++ code') post := by
  refine writes_bind h fun a targets htargets => ?_
  subst htargets
  exact hf a

/-- An instruction in front of further code. -/
theorem emits_then {act : Emission α} {f : α → Emission β} {piece : Piece}
    {post : β → List Nat → Prop} (h : Emits p act [piece]) (hf : ∀ a, Writes p (f a) code post) :
    Writes p (act >>= f) (piece :: code) post :=
  emits_bind h hf

theorem gives_liftM {act : Interning α} {b b' : Body} {a : α} :
    Gives ((liftM act : Emission α).run b) p (a, b') q ↔ Gives act p a q ∧ b' = b := by
  have hrun : (liftM act : Emission α).run b = act >>= fun a => pure (a, b) := rfl
  rw [hrun, gives_bind]
  constructor
  · rintro ⟨a', m, ha, h⟩
    obtain ⟨heq, rfl⟩ := gives_pure.1 h
    cases heq
    exact ⟨ha, rfl⟩
  · rintro ⟨ha, rfl⟩
    exact ⟨a, q, ha, gives_pure.2 ⟨rfl, rfl⟩⟩

theorem gives_liftM_except {e : Except Malformation α} {b b' : Body} {a : α} :
    Gives ((liftM e : Emission α).run b) p (a, b') q ↔ e = .ok a ∧ q = p ∧ b' = b := by
  have hrun : (liftM e : Emission α).run b =
      (liftM (liftM e : Interning α) : Emission α).run b := rfl
  rw [hrun, gives_liftM, gives_lift, and_assoc]

/-- Interning a constant emits nothing, and what it ensures is there for what follows. -/
theorem writes_interning {act : Interning α} {f : α → Emission β} {post : α → ConstantPool → Prop}
    {post' : β → List Nat → Prop}
    (hact : ∀ p a q, Gives act p a q → p.Extends q ∧ post a q)
    (hf : ∀ a q, p.Extends q → post a q → Writes q (f a) code post') :
    Writes p ((liftM act : Emission α) >>= f) code post' := by
  intro q b c b' r hq hroom hrun
  rw [StateT.run_bind] at hrun
  obtain ⟨⟨a, m⟩, s, ha, hc⟩ := gives_bind.1 hrun
  obtain ⟨hact', rfl⟩ := gives_liftM.1 ha
  obtain ⟨hqs, hpost⟩ := hact q a s hact'
  obtain ⟨hsr, hops⟩ := hf a s (hq.trans hqs) hpost s m c b' r (.refl s) hroom hc
  exact ⟨hqs.trans hsr, hops⟩

/-- A value that may be refused emits nothing. -/
theorem writes_lift {e : Except Malformation α} {f : α → Emission β} {post : β → List Nat → Prop}
    (hf : ∀ a, e = .ok a → Writes p (f a) code post) :
    Writes p ((liftM e : Emission α) >>= f) code post := by
  intro q b c b' r hq hroom hrun
  rw [StateT.run_bind] at hrun
  obtain ⟨⟨a, m⟩, s, ha, hc⟩ := gives_bind.1 hrun
  obtain ⟨he, rfl, rfl⟩ := gives_liftM_except.1 ha
  exact hf a he s m c b' r hq hroom hc

theorem emits_emit {f : Body → Body} (op : Op) {i : Instr}
    (hcode : ∀ b, (f b).code.toList = b.code.toList ++ op.bytes)
    (hdepths : ∀ b, (f b).depths = Body.track b.depths i.effect) (hi : op.instr? p = some i) :
    Emits p (emit f) [.plain i] := by
  intro q b a b' r hq _ hrun
  obtain ⟨heq, rfl⟩ := gives_pure.1 hrun
  cases heq
  exact ⟨.refl r, op.bytes, [], .single (Op.instr?_mono hq hi), hcode b, rfl, hdepths b⟩

theorem emits_op {opcode : UInt8} {effect : Int} {i : Instr}
    (hi : Instr.ofOpcode? opcode = some i) (heffect : i.effect = effect) :
    Emits p (op opcode effect) [.plain i] := by
  subst heffect
  exact emits_emit (.plain opcode) (fun b => by simp [Body.op, Body.emit, Body.stack, Op.bytes])
    (fun _ => rfl) hi

theorem emits_op16 {opcode : UInt8} {operand : UInt16} {effect : Int} {i : Instr}
    (hi : Instr.ofHalf? p opcode operand = some i) (heffect : i.effect = effect) :
    Emits p (op16 opcode operand effect) [.plain i] := by
  subst heffect
  exact emits_emit (.half opcode operand) (fun b => by
    simp [Body.op16, Body.emit, Body.stack, Op.bytes, bytes16, BigEndian.encode])
    (fun _ => rfl) hi

/-! ### Branches -/

/-- What `act` emits, behind a branch that leads behind it.  Yields where the branch leads. -/
def skipping (test : Test) (act : Emission Unit) : Emission Nat := do
  let start ← branch test.opcode test.effect
  act
  let target ← position
  patch start
  return target

theorem gives_branch {opcode : UInt8} {effect : Int} {b b' : Body} {start : Nat} :
    Gives ((branch opcode effect).run b) p (start, b') q ↔
      start = b.code.size ∧ b' = b.branch opcode effect ∧ q = p := by
  have hrun : (branch opcode effect).run b =
      (pure (b.code.size, b.branch opcode effect) : Interning (Nat × Body)) := rfl
  rw [hrun, gives_pure, Prod.mk.injEq, and_assoc]

theorem gives_patch {start : Nat} {b b' : Body} {a : Unit} :
    Gives ((patch start).run b) p (a, b') q ↔ b.patch start = .ok b' ∧ q = p := by
  cases hpatch : b.patch start with
  | error cause =>
    have hrun : (patch start).run b = throw cause := by
      simp only [patch, StateT.run_bind, StateT.run_get, pure_bind, hpatch]
      rfl
    simp [hrun, gives_throw]
  | ok patched =>
    have hrun : (patch start).run b = (pure ((), patched) : Interning (Unit × Body)) := by
      simp only [patch, StateT.run_bind, StateT.run_get, pure_bind, hpatch]
      rfl
    simp [hrun, gives_pure, eq_comm]

theorem gives_position {b b' : Body} {k : Nat} :
    Gives (position.run b) p (k, b') q ↔ k = b.code.size ∧ b' = b ∧ q = p := by
  have hrun : position.run b = (pure (b.code.size, b) : Interning (Nat × Body)) := rfl
  rw [hrun, gives_pure, Prod.mk.injEq, and_assoc]

theorem branch_toList (b : Body) (opcode : UInt8) (effect : Int) :
    (b.branch opcode effect).code.toList = b.code.toList ++ (Op.half opcode 0).bytes := by
  simp [Body.branch, Body.op16, Body.emit, Body.stack, Op.bytes, bytes16, BigEndian.encode]

/-- **Skipped instructions.**  A branch that is pointed behind the instructions emitted after it
skips these. -/
theorem writes_skipping {test : Test} {act : Emission Unit} {inner : List Instr}
    (h : Emits p act (inner.map .plain)) :
    Writes p (skipping test act) [.guarded test inner] fun k targets => targets = [k] := by
  intro q b a b' r hq hroom hrun
  have hstart : b.code.size ≤ Body.farthestStart := by
    rcases hroom with hplain | hroom
    · cases hplain _ (List.mem_singleton_self _)
    · omega
  simp only [skipping, StateT.run_bind] at hrun
  -- the branch, what it skips, where that ends, and the patch that points the branch there
  obtain ⟨⟨start, b₁⟩, q₁, hbranch, h₁⟩ := gives_bind.1 hrun
  obtain ⟨⟨_, b₂⟩, q₂, hact, h₂⟩ := gives_bind.1 h₁
  obtain ⟨⟨k, b₃⟩, q₃, hposition, h₃⟩ := gives_bind.1 h₂
  obtain ⟨⟨_, b₄⟩, q₄, hpatch, h₄⟩ := gives_bind.1 h₃
  obtain ⟨rfl, rfl, rfl⟩ := gives_branch.1 hbranch
  obtain ⟨rfl, rfl, rfl⟩ := gives_position.1 hposition
  obtain ⟨hpatched, rfl⟩ := gives_patch.1 hpatch
  obtain ⟨heq, rfl⟩ := gives_pure.1 h₄
  cases heq
  have hplain : ∀ piece ∈ inner.map Piece.plain, piece.isPlain = true := by
    intro piece hpiece
    obtain ⟨i, -, rfl⟩ := List.mem_map.1 hpiece
    rfl
  obtain ⟨hext, inside, _, hinside, hb₃, -, hdepths⟩ := h _ _ _ b₃ r hq (.inl hplain) hact
  have hcode : b₃.code.toList =
      b.code.toList ++ ((Op.half test.opcode 0).bytes ++ inside) := by
    rw [hb₃, branch_toList, List.append_assoc]
  have htarget : b₃.code.size = b.code.size + (3 + inside.length) := by
    rw [← Array.length_toList, hcode]
    simp [Op.bytes, bytes16, BigEndian.encode]
    omega
  rw [← Array.length_toList] at hstart hpatched
  obtain ⟨hlen, hsame, hb₄⟩ := Body.patch_eq_ok hcode hstart hpatched
  refine ⟨hext, _, _, .guarded hinside.encodes hlen .nil, ?_, ?_, ?_⟩
  · rw [hb₄, List.append_nil]
  · rw [htarget]
  · rw [hsame, hdepths, Piece.effectsOf_plain]
    simp only [Piece.effectsOf, List.flatMap_cons, List.flatMap_nil, List.append_nil,
      Piece.effects, List.foldl_cons]
    rfl

/-- Skipped instructions in front of further code. -/
theorem writes_skippingThen {test : Test} {act : Emission Unit} {f : Nat → Emission β}
    {inner : List Instr} {post : β → List Nat → Prop} (h : Emits p act (inner.map .plain))
    (hf : ∀ k, Writes p (f k) code fun c targets => post c (k :: targets)) :
    Writes p (skipping test act >>= f) (.guarded test inner :: code) post := by
  refine writes_bind (writes_skipping h) fun k targets htargets => ?_
  subst htargets
  exact hf k

theorem writes_pure {a : α} {post : α → List Nat → Prop} (h : post a []) :
    Writes p (pure a) [] post := by
  intro q b a' b' r _ _ hrun
  obtain ⟨heq, rfl⟩ := gives_pure.1 hrun
  cases heq
  exact ⟨.refl _, [], [], .nil, (List.append_nil _).symm, h, rfl⟩

/-! ### Single instructions -/

/-- An instruction on a field. -/
theorem emits_field {opcode : UInt8} {operand : UInt16} {effect : Int} {make : MemberRef → Instr}
    (hopcode : ∀ p k, Instr.ofHalf? p opcode k = make <$> p.fieldAt? k) {m : MemberRef}
    (h : p.fieldAt? operand = some m) (heffect : (make m).effect = effect) :
    Emits p (op16 opcode operand effect) [.plain (make m)] :=
  emits_op16 (by rw [hopcode, h]; rfl) heffect

/-- A call of a method. -/
theorem emits_call {opcode : UInt8} {operand : UInt16} {effect : Int} {kind : CallKind}
    (hopcode : ∀ p k, Instr.ofHalf? p opcode k = .invoke kind <$> p.methodAt? k) {m : MemberRef}
    (h : p.methodAt? operand = some m) (heffect : (Instr.invoke kind m).effect = effect) :
    Emits p (op16 opcode operand effect) [.plain (.invoke kind m)] :=
  emits_op16 (by rw [hopcode, h]; rfl) heffect

/-- The creation of an object. -/
theorem emits_new {operand : UInt16} {name : String} (h : p.className operand = .ok name) :
    Emits p (op16 Opcode.new operand 1) [.plain (.new name)] := by
  have hnew : ∀ p k, Instr.ofHalf? p Opcode.new k = .new <$> (p.className k).toOption :=
    fun _ _ => rfl
  exact emits_op16 (by rw [hnew, h]; rfl) rfl

theorem emits_this : Emits p this [.plain (.load .ref 0)] :=
  emits_op rfl rfl

theorem ofOpcode?_iconst {n : Int} (hlow : -1 ≤ n) (hhigh : n ≤ 5) :
    Instr.ofOpcode? (UInt8.ofNat (Opcode.iconstM1.toNat + (n + 1).toNat)) =
      some (.push (.int (.ofInt n))) := by
  obtain ⟨k, hk⟩ : ∃ k : Nat, n = (k : Int) - 1 := ⟨(n + 1).toNat, by omega⟩
  obtain rfl | rfl | rfl | rfl | rfl | rfl | rfl : k = 0 ∨ k = 1 ∨ k = 2 ∨ k = 3 ∨ k = 4 ∨ k = 5 ∨
    k = 6 := by omega
  all_goals
    subst hk
    decide

/-- An integer is pushed by whatever instruction can push it. -/
theorem emits_pushInt (value : Int32) : Emits p (pushInt value) [.plain (.push (.int value))] := by
  have hvalue : Int32.ofInt value.toInt = value := Int32.ofInt_toInt value
  unfold pushInt
  simp only
  split
  · rename_i h
    -- one byte: the opcode tells the integer
    have hiconst := ofOpcode?_iconst h.1 h.2
    rw [hvalue] at hiconst
    exact emits_op hiconst rfl
  split
  · rename_i h
    -- two bytes
    have hbyte : Int.bmod (UInt8.ofNat (value.toInt % 256).toNat).toNat 256 = value.toInt := by
      rw [toNat_ofNat_byte (by omega), Int.bmod_def]
      omega
    refine emits_emit (.byte Opcode.bipush (UInt8.ofNat (value.toInt % 256).toNat)) (fun b => ?_)
      (fun _ => rfl) ?_
    · simp [Body.op8, Body.emit, Body.stack, Op.bytes]
    · rw [Op.instr?, if_pos rfl, hbyte, hvalue]
  split
  · rename_i h
    -- three bytes
    have hhalf : Int.bmod (UInt16.ofNat (value.toInt % 65536).toNat).toNat 65536 = value.toInt := by
      rw [toNat_ofNat_half (by omega), Int.bmod_def]
      omega
    refine emits_op16 ?_ rfl
    rw [Instr.ofHalf?, if_pos rfl, hhalf, hvalue]
  · -- a constant of the pool
    have hinteger : ∀ p i q, Gives (Interning.integer value) p i q →
        p.Extends q ∧ q.get? i = some (.integer value) :=
      fun p i q h => Interning.gives_constant h
    refine writes_interning hinteger fun i q _ hi => emits_op16 ?_ rfl
    simp only [Instr.ofHalf?, Instr.constantAt?, hi]
    rfl

/-! ### Values of a kind -/

theorem emits_pushDefault (kind : ValueKind) :
    Emits p (emit (·.pushDefault kind)) [.plain (.push kind.type.zero)] := by
  cases kind <;> exact emits_op rfl rfl

theorem emits_loadParameter (kind : ValueKind) :
    Emits p (emit (·.loadParameter kind)) [.plain (.load kind.type 1)] := by
  cases kind <;> exact emits_op rfl rfl

theorem emits_returnValue (kind? : Option ValueKind) :
    Emits p (emit (·.returnValue kind?)) [.plain (.ret (kind?.map ValueKind.type))] := by
  cases kind? with
  | none => exact emits_op rfl rfl
  | some kind => cases kind <;> exact emits_op rfl rfl

end Emission

end ClassWeave
