import ClassWeave.Proofs.Body.Emission
import ClassWeave.Proofs.Verifier.StackMap
import ClassWeave.Weaving.Growth
import Mathlib.Data.List.Forall2

/-!
# What is gained

A computation that gains members appends fields and methods that realize given designs, in a pool
that only grows.

* `FieldDesign`, `MethodDesign` : a new member by its texts and, for a method, its code and what the
  local variables hold where its branches lead.
* `Growing.Adds` : the designs of the members that a computation gains whenever it succeeds.
* `Growing.adds_bind`, `adds_emission`, `adds_addField`, `adds_addMethod` : the laws by which the
  designs of a computation are found.
-/

namespace ClassWeave

/-! ### Designs -/

/-- A new field. -/
structure FieldDesign where
  /-- The access flags. -/
  access : Access
  /-- The name. -/
  name : String
  /-- The descriptor. -/
  descriptor : String
  /-- The integer that a constant field has as its value. -/
  constant? : Option Int32 := none
  deriving DecidableEq, Repr

/-- The attributes of a field whose value is an integer constant, if it is one. -/
def IsConstantTable (pool : ConstantPool) : Option Int32 → List Attribute → Prop
  | none, attributes => attributes = []
  | some value, attributes => ∃ name slot, attributes = [.raw name (bytes16 slot)] ∧
      pool.utf8 name = .ok Attribute.constantValueName ∧ pool.get? slot = some (.integer value)

/-- A field is as designed. -/
structure FieldDesign.Realized (pool : ConstantPool) (d : FieldDesign) (f : Member) : Prop where
  /-- It has the access flags. -/
  access : f.access = d.access
  /-- It has the name. -/
  name : pool.utf8 f.name = .ok d.name
  /-- It has the descriptor. -/
  descriptor : pool.utf8 f.descriptor = .ok d.descriptor
  /-- It has the value, if it is a constant, and no other attributes. -/
  attributes : IsConstantTable pool d.constant? f.attributes

/-- A new method. -/
structure MethodDesign where
  /-- The access flags. -/
  access : Access
  /-- The name. -/
  name : String
  /-- The descriptor. -/
  descriptor : String
  /-- The code. -/
  code : List Piece
  /-- The number of local variable slots. -/
  maxLocals : UInt16
  /-- What the local variables hold where the branches lead, branch by branch. -/
  frames : List (List ValueType) := []
  deriving DecidableEq, Repr

namespace MethodDesign

/-- What the local variables hold when the method starts: the object, unless the method is static,
and the parameters. -/
def initial (d : MethodDesign) : List ValueType :=
  (if d.access.has Access.staticFlag then [] else [.ref]) ++
    ((Descriptor.signature? d.descriptor).map (·.parameters)).getD []

/-- The greatest depth of the operand stack. -/
def deepest (d : MethodDesign) : Int := ((Piece.effectsOf d.code).foldl Body.track (0, 0)).2

/-- The payload of the frames, if there are any, tells what the local variables hold where the
branches lead, and that the operand stack is empty there. -/
def Framed (d : MethodDesign) (targets : List Nat) : Option Bytes → Prop
  | none => d.frames = []
  | some payload => d.frames ≠ [] ∧
      StackMap.decode d.initial payload = .ok (List.zipWith (fun offset locals =>
        { offset, locals := locals.map some, stack := [] }) targets d.frames)

/-- The attributes of a body: its frames, if it has any and the version of the unit asks for
them. -/
def IsFrameTable (framed : Bool) (pool : ConstantPool) (d : MethodDesign) (targets : List Nat)
    (attributes : List Attribute) : Prop :=
  if framed ∧ d.frames ≠ [] then
    ∃ name payload, attributes = [.raw name payload] ∧
      pool.utf8 name = .ok Attribute.stackMapName ∧ d.Framed targets (some payload)
  else attributes = []

end MethodDesign

/-- A method body is as designed. -/
structure MethodDesign.Body (framed : Bool) (pool : ConstantPool) (d : MethodDesign) (body : Code) :
    Prop where
  /-- Its instructions are the code, and its attributes the frames where the branches lead. -/
  code : ∃ targets, Located pool 0 d.code body.instructions targets ∧
    d.IsFrameTable framed pool targets body.attributes
  /-- It has the greatest depth of the operand stack. -/
  maxStack : body.maxStack = ClassWeave.Body.maxStack { deepest := d.deepest }
  /-- It has the number of local variable slots. -/
  maxLocals : body.maxLocals = d.maxLocals
  /-- It catches nothing. -/
  handlers : body.handlers = []

/-- A method is as designed. -/
structure MethodDesign.Realized (framed : Bool) (pool : ConstantPool) (d : MethodDesign)
    (m : Member) : Prop where
  /-- It has the access flags. -/
  access : m.access = d.access
  /-- It has the name. -/
  name : pool.utf8 m.name = .ok d.name
  /-- It has the descriptor. -/
  descriptor : pool.utf8 m.descriptor = .ok d.descriptor
  /-- It has a body, and no other attributes. -/
  body : ∃ name body, m.attributes = [.code name body] ∧
    pool.utf8 name = .ok Attribute.codeName ∧ d.Body framed pool body

/-- An attribute with frames for the verifier. -/
def Attribute.IsFrames (pool : ConstantPool) (a : Attribute) : Prop :=
  ∃ name frames, a = .raw name frames ∧ pool.utf8 name = .ok stackMapName

section

variable {framed : Bool} {p q : ConstantPool}

theorem FieldDesign.Realized.mono (hpq : p.Extends q) {d : FieldDesign} {f : Member}
    (h : d.Realized p f) : d.Realized q f := by
  obtain ⟨haccess, hname, hdescriptor, hattributes⟩ := h
  refine ⟨haccess, hpq.utf8 hname, hpq.utf8 hdescriptor, ?_⟩
  unfold IsConstantTable at hattributes ⊢
  split at hattributes
  · exact hattributes
  · obtain ⟨name, slot, htable, hname, hslot⟩ := hattributes
    exact ⟨name, slot, htable, hpq.utf8 hname, hpq.get? hslot⟩

namespace MethodDesign

variable {d : MethodDesign} {body : Code}

theorem IsFrameTable.mono (hpq : p.Extends q) {targets : List Nat} {attributes : List Attribute}
    (h : d.IsFrameTable framed p targets attributes) :
    d.IsFrameTable framed q targets attributes := by
  unfold IsFrameTable at h ⊢
  split_ifs at h ⊢
  · obtain ⟨name, payload, htable, hname, hframed⟩ := h
    exact ⟨name, payload, htable, hpq.utf8 hname, hframed⟩
  · exact h

theorem Body.mono (hpq : p.Extends q) (h : d.Body framed p body) : d.Body framed q body := by
  obtain ⟨⟨targets, hcode, hframes⟩, hstack, hlocals, hhandlers⟩ := h
  exact ⟨⟨targets, hcode.mono hpq, hframes.mono hpq⟩, hstack, hlocals, hhandlers⟩

theorem Body.encodes (h : d.Body framed p body) : Encodes p d.code body.instructions := by
  obtain ⟨_, hcode, -⟩ := h.code
  exact hcode.encodes

/-- A body has at most frames as attributes. -/
theorem Body.isFrames (h : d.Body framed p body) : ∀ a ∈ body.attributes, a.IsFrames p := by
  obtain ⟨_, -, hframes⟩ := h.code
  unfold IsFrameTable at hframes
  split_ifs at hframes
  · obtain ⟨name, payload, htable, hname, -⟩ := hframes
    rw [htable]
    exact fun a ha => ⟨name, payload, List.mem_singleton.1 ha, hname⟩
  · rw [hframes]
    exact fun a ha => absurd ha List.not_mem_nil

theorem Realized.mono (hpq : p.Extends q) {m : Member} (h : d.Realized framed p m) :
    d.Realized framed q m := by
  obtain ⟨haccess, hname, hdescriptor, name, body, htable, hcode, hbody⟩ := h
  exact ⟨haccess, hpq.utf8 hname, hpq.utf8 hdescriptor, name, body, htable, hpq.utf8 hcode,
    hbody.mono hpq⟩

end MethodDesign

end

namespace Growing

variable {α β : Type} {framed : Bool} {p q : ConstantPool} {g g' : Growth} {a : α}
  {fs fs' : List FieldDesign} {ms ms' : List MethodDesign}

/-! ### Runs -/

/-- Started with the growth `g` and the pool `p`, the computation succeeds with `a` and ends with
the growth `g'` and the pool `q`. -/
def Gains (act : Growing α) (g : Growth) (p : ConstantPool) (a : α) (g' : Growth)
    (q : ConstantPool) : Prop :=
  Id.run ((act.run g).run p) = ((.ok a, g'), q)

theorem run_bind (act : Growing α) (f : α → Growing β) (g : Growth) (p : ConstantPool) :
    Id.run (((act >>= f).run g).run p) =
      match Id.run ((act.run g).run p) with
      | ((r, m), s) => Id.run ((ExceptT.bindCont f r m) s) :=
  rfl

theorem gains_bind {act : Growing α} {f : α → Growing β} {b : β} :
    Gains (act >>= f) g p b g' q ↔ ∃ a m r, Gains act g p a m r ∧ Gains (f a) m r b g' q := by
  unfold Gains
  rw [run_bind]
  rcases Id.run ((act.run g).run p) with ⟨⟨_ | a, m⟩, s⟩
  · constructor
    · intro h
      cases congrArg (fun result => result.1.1) h
    · rintro ⟨a, m, r, ⟨⟩, -⟩
  · constructor
    · intro h
      exact ⟨a, m, s, rfl, h⟩
    · rintro ⟨a', m', s', heq, h⟩
      cases heq
      exact h

theorem gains_pure {b : α} : Gains (pure b : Growing α) g p a g' q ↔ a = b ∧ g' = g ∧ q = p := by
  show (((.ok b, g), p) : (Except Malformation α × Growth) × ConstantPool) = ((.ok a, g'), q) ↔ _
  simp [eq_comm, and_assoc]

theorem gains_lift {e : Except Malformation α} :
    Gains (liftM e : Growing α) g p a g' q ↔ e = .ok a ∧ g' = g ∧ q = p := by
  show (((e, g), p) : (Except Malformation α × Growth) × ConstantPool) = ((.ok a, g'), q) ↔ _
  simp [eq_comm, and_assoc]

theorem gains_interning {act : Interning α} :
    Gains (interning act) g p a g' q ↔ Gives act p a q ∧ g' = g := by
  have hrun : Id.run (((interning act).run g).run p) =
      (((Id.run (act.run p)).1, g), (Id.run (act.run p)).2) := rfl
  unfold Gains Gives
  rw [hrun]
  rcases Id.run (act.run p) with ⟨result, r⟩
  simp only [Prod.mk.injEq, and_comm, and_left_comm, eq_comm]

theorem gains_modify {f : Growth → Growth} {a : Unit} :
    Gains (modifyThe Growth f) g p a g' q ↔ g' = f g ∧ q = p := by
  show (((.ok (), f g), p) : (Except Malformation Unit × Growth) × ConstantPool) =
    ((.ok a, g'), q) ↔ _
  simp [eq_comm]

/-! ### Designs of what is gained -/

/-- From every pool that extends `p`, a successful run extends the pool, and gains fields and
methods that realize the designs, in this order; methods have frames if they are asked for. -/
def Adds (framed : Bool) (p : ConstantPool) (act : Growing α) (fs : List FieldDesign)
    (ms : List MethodDesign) : Prop :=
  ∀ g q a g' r, g.needsFrames = framed → p.Extends q → Gains act g q a g' r →
    q.Extends r ∧ g'.needsFrames = framed ∧ ∃ fields methods,
      List.Forall₂ (FieldDesign.Realized r) fs fields ∧
      List.Forall₂ (MethodDesign.Realized framed r) ms methods ∧
      g'.fields = fields.reverse ++ g.fields ∧ g'.methods = methods.reverse ++ g.methods

theorem adds_bind {act : Growing α} {f : α → Growing β} (h : Adds framed p act fs ms)
    (hf : ∀ a, Adds framed p (f a) fs' ms') :
    Adds framed p (act >>= f) (fs ++ fs') (ms ++ ms') := by
  intro g q b g' r hg hq hrun
  obtain ⟨a, m, s, ha, hb⟩ := gains_bind.1 hrun
  obtain ⟨hqs, hm, fields, methods, hfields, hmethods, hmf, hmm⟩ := h g q a m s hg hq ha
  obtain ⟨hsr, hg', fields', methods', hfields', hmethods', hgf, hgm⟩ :=
    hf a m s b g' r hm (hq.trans hqs) hb
  refine ⟨hqs.trans hsr, hg', fields ++ fields', methods ++ methods', ?_, ?_, ?_, ?_⟩
  · exact List.rel_append (hfields.imp fun _ _ h => h.mono hsr) hfields'
  · exact List.rel_append (hmethods.imp fun _ _ h => h.mono hsr) hmethods'
  · rw [hgf, hmf, List.reverse_append, List.append_assoc]
  · rw [hgm, hmm, List.reverse_append, List.append_assoc]

/-- A field in front of what follows. -/
theorem adds_fieldThen {act : Growing α} {f : α → Growing β} {d : FieldDesign}
    (h : Adds framed p act [d] []) (hf : ∀ a, Adds framed p (f a) fs ms) :
    Adds framed p (act >>= f) (d :: fs) ms :=
  adds_bind h hf

/-- A method in front of what follows. -/
theorem adds_methodThen {act : Growing α} {f : α → Growing β} {d : MethodDesign}
    (h : Adds framed p act [] [d]) (hf : ∀ a, Adds framed p (f a) fs ms) :
    Adds framed p (act >>= f) fs (d :: ms) :=
  adds_bind h hf

theorem adds_pure (a : α) : Adds framed p (pure a) [] [] := by
  intro g q b g' r hg _ hrun
  obtain ⟨rfl, rfl, rfl⟩ := gains_pure.1 hrun
  exact ⟨.refl _, hg, [], [], .nil, .nil, rfl, rfl⟩

theorem adds_forM {γ : Type} {f : γ → Growing Unit} {designs : γ → List FieldDesign}
    {designs' : γ → List MethodDesign} (h : ∀ c, Adds framed p (f c) (designs c) (designs' c))
    (cs : List γ) : Adds framed p (cs.forM f) (cs.flatMap designs) (cs.flatMap designs') := by
  induction cs with
  | nil => exact adds_pure _
  | cons c cs ih => exact adds_bind (h c) fun _ => ih

/-- What gains no members comes before without a trace, and what it ensures is there for what
follows. -/
theorem adds_silent {act : Growing α} {f : α → Growing β} {post : α → ConstantPool → Prop}
    (hact : ∀ g q a g' r, g.needsFrames = framed → Gains act g q a g' r →
      q.Extends r ∧ g' = g ∧ post a r)
    (hf : ∀ a r, p.Extends r → post a r → Adds framed r (f a) fs ms) :
    Adds framed p (act >>= f) fs ms := by
  intro g q b g' r hg hq hrun
  obtain ⟨a, m, s, ha, hb⟩ := gains_bind.1 hrun
  obtain ⟨hqs, rfl, hpost⟩ := hact g q a m s hg ha
  obtain ⟨hsr, hgained⟩ := hf a s (hq.trans hqs) hpost m s b g' r hg (.refl s) hb
  exact ⟨hqs.trans hsr, hgained⟩

theorem adds_interning {act : Interning α} {f : α → Growing β} {post : α → ConstantPool → Prop}
    (hact : ∀ q a r, Gives act q a r → q.Extends r ∧ post a r)
    (hf : ∀ a r, p.Extends r → post a r → Adds framed r (f a) fs ms) :
    Adds framed p (interning act >>= f) fs ms := by
  refine adds_silent (fun g q a g' r _ hrun => ?_) hf
  obtain ⟨hgives, rfl⟩ := gains_interning.1 hrun
  obtain ⟨hqr, hpost⟩ := hact q a r hgives
  exact ⟨hqr, rfl, hpost⟩

theorem adds_lift {e : Except Malformation α} {f : α → Growing β}
    (hf : ∀ a, e = .ok a → Adds framed p (f a) fs ms) :
    Adds framed p ((liftM e : Growing α) >>= f) fs ms := by
  intro g q b g' r hg hq hrun
  obtain ⟨a, m, s, ha, hb⟩ := gains_bind.1 hrun
  obtain ⟨he, rfl, rfl⟩ := gains_lift.1 ha
  exact hf a he _ _ b g' r hg hq hb

/-- A body is written whose instructions are the emitted code, and which has kept count of the
operand stack. -/
theorem adds_emission {act : Emission α} {code : List Piece} {post : α → List Nat → Prop}
    {f : α × Body → Growing β} (hact : ∀ q, Emission.Writes q act code post)
    (hroom : Body.HasRoom {} code)
    (hf : ∀ (a : α) (body : Body) targets r, p.Extends r →
      Located r 0 code body.code.toList targets → post a targets →
      body.depths = (Piece.effectsOf code).foldl Body.track (0, 0) →
      Adds framed r (f (a, body)) fs ms) :
    Adds framed p (emission act >>= f) fs ms := by
  have hbody : ∀ q (result : α × Body) r, Gives (act.run {}) q result r →
      q.Extends r ∧ ∃ targets, Located r 0 code result.2.code.toList targets ∧
        post result.1 targets ∧ result.2.depths = (Piece.effectsOf code).foldl Body.track (0, 0) :=
    fun q result r => (hact q).whole hroom
  refine adds_interning hbody fun result r hr hresult => ?_
  obtain ⟨targets, hcode, hpost, hdepths⟩ := hresult
  exact hf result.1 result.2 targets r hr hcode hpost hdepths

/-! ### New members -/

/-- A field is gained. -/
theorem adds_addField {access : Access} {name descriptor : String} {attributes : List Attribute}
    {constant? : Option Int32} (h : ∀ q, p.Extends q → IsConstantTable q constant? attributes) :
    Adds framed p (addField access name descriptor attributes)
      [{ access, name, descriptor, constant? }] [] := by
  refine adds_interning (fun _ _ _ => Interning.gives_utf8) fun n q hpq hn => ?_
  refine adds_interning (fun _ _ _ => Interning.gives_utf8) fun d r hqr hd => ?_
  intro g s a g' t hg hs hrun
  obtain ⟨rfl, rfl⟩ := gains_modify.1 hrun
  have hattributes := h _ ((hpq.trans hqr).trans hs)
  exact ⟨.refl _, hg, [_], [],
    .cons ⟨rfl, (hqr.trans hs).utf8 hn, hs.utf8 hd, hattributes⟩ .nil, .nil, rfl, rfl⟩

/-- The attributes that a body with frames gets. -/
theorem gains_framesAttribute {frames? : Option Bytes} {g g' : Growth} {attributes : List Attribute}
    (h : Gains (framesAttribute frames?) g p attributes g' q) :
    p.Extends q ∧ g' = g ∧ ((g.needsFrames = false ∨ frames? = none) ∧ attributes = [] ∨
      g.needsFrames = true ∧ ∃ name payload, frames? = some payload ∧
        attributes = [.raw name payload] ∧ q.utf8 name = .ok Attribute.stackMapName) := by
  unfold framesAttribute at h
  cases frames? with
  | none =>
    obtain ⟨rfl, rfl, rfl⟩ := gains_pure.1 h
    exact ⟨.refl _, rfl, .inl ⟨.inr rfl, rfl⟩⟩
  | some payload =>
    obtain ⟨g₁, m, s, hget, hrest⟩ := gains_bind.1 h
    obtain ⟨rfl, rfl, rfl⟩ : g₁ = g ∧ m = g ∧ s = p := by
      cases hget
      exact ⟨rfl, rfl, rfl⟩
    split at hrest
    · rename_i hneeds
      obtain ⟨name, m', s', hname, hend⟩ := gains_bind.1 hrest
      obtain ⟨hgives, rfl⟩ := gains_interning.1 hname
      obtain ⟨rfl, rfl, rfl⟩ := gains_pure.1 hend
      obtain ⟨hext, htext⟩ := Interning.gives_utf8 hgives
      exact ⟨hext, rfl, .inr ⟨hneeds, name, payload, rfl, rfl, htext⟩⟩
    · rename_i hneeds
      obtain ⟨rfl, rfl, rfl⟩ := gains_pure.1 hrest
      exact ⟨.refl _, rfl, .inl ⟨.inl (by simpa using hneeds), rfl⟩⟩

/-- A method is gained. -/
theorem adds_addMethod {access : Access} {name descriptor : String} {body : Body}
    {maxLocals : UInt16} {frames? : Option Bytes} {code : List Piece} {targets : List Nat}
    {frames : List (List ValueType)} (h : Located p 0 code body.code.toList targets)
    (hdepths : body.depths = (Piece.effectsOf code).foldl Body.track (0, 0))
    (hframes : MethodDesign.Framed { access, name, descriptor, code, maxLocals, frames } targets
      frames?) :
    Adds framed p (addMethod access name descriptor body maxLocals frames?) []
      [{ access, name, descriptor, code, maxLocals, frames }] := by
  let d : MethodDesign := { access, name, descriptor, code, maxLocals, frames }
  have htable : ∀ g q attributes g' r, g.needsFrames = framed →
      Gains (framesAttribute frames?) g q attributes g' r →
        q.Extends r ∧ g' = g ∧ d.IsFrameTable framed r targets attributes := by
    intro g q attributes g' r hg hrun
    obtain ⟨hext, hsame, hattributes⟩ := gains_framesAttribute hrun
    refine ⟨hext, hsame, ?_⟩
    unfold MethodDesign.IsFrameTable
    rw [hg] at hattributes
    rcases hattributes with ⟨hnone, rfl⟩ | ⟨rfl, slot, payload, rfl, rfl, htext⟩
    · rw [if_neg]
      rintro ⟨rfl, hne⟩
      obtain rfl := hnone.resolve_left (by decide)
      exact hne hframes
    · rw [if_pos ⟨rfl, hframes.1⟩]
      exact ⟨slot, payload, rfl, htext, hframes⟩
  refine adds_silent htable fun attributes q₁ h₁ htable => ?_
  refine adds_interning (fun _ _ _ => Interning.gives_utf8) fun c q₂ h₂ hc => ?_
  refine adds_interning (fun _ _ _ => Interning.gives_utf8) fun n q₃ h₃ hn => ?_
  refine adds_interning (fun _ _ _ => Interning.gives_utf8) fun t q₄ h₄ ht => ?_
  intro g s a g' r hg hs hrun
  obtain ⟨rfl, rfl⟩ := gains_modify.1 hrun
  have h₃ := h₃.trans (h₄.trans hs)
  have h₂ := h₂.trans h₃
  refine ⟨.refl _, hg, [], [_], .nil,
    .cons ⟨rfl, (h₄.trans hs).utf8 hn, hs.utf8 ht, ?_⟩ .nil, rfl, rfl⟩
  refine ⟨c, _, rfl, h₃.utf8 hc, ⟨targets, h.mono (h₁.trans h₂), htable.mono h₂⟩, ?_, rfl, rfl⟩
  show body.maxStack = _
  rw [Body.maxStack, Body.maxStack, MethodDesign.deepest, ← hdepths]
  rfl

end Growing

end ClassWeave
