import ClassWeave.Proofs.Except
import ClassWeave.Proofs.Verifier.Listing

/-!
# Designs that pass the verifier

* `MethodDesign.Checked` : a design whose code was checked in pieces, with the types at hand that it
  tells where branches lead.
* `MethodDesign.deepest_le` : short code does not make the operand stack too deep.
* `MethodDesign.Realized.verified`, `forall₂_verifiedAs` : methods that realize such designs are
  verified.
-/

namespace ClassWeave

namespace Typing

theorem length_spread (types : List ValueType) :
    (spread (types.map some)).length = ValueType.slotsOf types := by
  induction types with
  | nil => rfl
  | cons type types ih =>
    have hslots : 1 ≤ type.slots := by cases type <;> decide
    simp only [List.map_cons, spread, List.length_cons, List.length_append, List.length_replicate,
      ih, ValueType.slotsOf, List.sum_cons]
    omega

/-- A method starts with as many local variables as it asks for, if its arguments fit. -/
theorem length_start {maxLocals : Nat} {arguments : List ValueType}
    (h : ValueType.slotsOf arguments ≤ maxLocals) :
    (start maxLocals arguments).locals.length = maxLocals := by
  rw [start, places, List.length_append, List.length_replicate, length_spread]
  omega

end Typing

namespace Code

/-- A step along a path keeps the number of local variables. -/
theorem length_locals_of_flows {pool : ConstantPool} {code : Bytes} {p q : Point}
    (h : Flows pool code p q) : q.typing.locals.length = p.typing.locals.length := by
  cases h with
  | next _ hs => exact (Instr.changes_of_transfer? hs).locals
  | jump _ hs => exact (Instr.changes_of_transfer? hs).locals

/-- So do paths. -/
theorem length_locals_of_reached {pool : ConstantPool} {arguments : List ValueType} {body : Code}
    (hfits : ValueType.slotsOf arguments ≤ body.maxLocals.toNat) {p : Point}
    (h : Reached pool arguments body p) : p.typing.locals.length = body.maxLocals.toNat := by
  induction h with
  | refl => exact Typing.length_start hfits
  | tail _ hstep ih => exact (length_locals_of_flows hstep).trans ih

end Code

/-! ### The depth of the operand stack -/

theorem ValueType.slots_le (type : ValueType) : type.slots ≤ 2 := by
  cases type <;> decide

/-- An instruction leaves at most one value more on the operand stack. -/
theorem Instr.effect_le (i : Instr) : i.effect ≤ 2 := by
  cases i with
  | push value => exact Int.ofNat_le.2 value.type.slots_le
  | load type i => exact Int.ofNat_le.2 type.slots_le
  | getStatic m => exact Int.ofNat_le.2 (ValueType.slots_le _)
  | getField m =>
    have hle := ((Descriptor.fieldType? m.descriptor).getD .ref).slots_le
    simp only [effect]
    omega
  | invoke kind m =>
    have hresult (type? : Option ValueType) : ValueType.slotsOf type?.toList ≤ 2 := by
      cases type? with
      | none => decide
      | some type => simpa [ValueType.slotsOf] using type.slots_le
    have hle := hresult ((Descriptor.signature? m.descriptor).getD ⟨[], none⟩).result?
    simp only [effect]
    split <;> omega
  | _ => simp only [effect]; omega

namespace Piece

theorem length_effects_le (piece : Piece) : piece.effects.length ≤ piece.span := by
  cases piece with
  | plain i => exact Nat.le_add_left 1 2
  | guarded test inner =>
    rw [effects, span, List.length_cons, List.length_map]
    omega

theorem length_effectsOf_le (code : List Piece) : (effectsOf code).length ≤ spanOf code := by
  induction code with
  | nil => exact Nat.le_refl 0
  | cons piece code ih =>
    have hpiece := piece.length_effects_le
    rw [effectsOf, List.flatMap_cons, ← effectsOf, List.length_append, spanOf, List.map_cons,
      List.sum_cons, ← spanOf]
    omega

theorem effect_le_of_mem {code : List Piece} {effect : Int} (h : effect ∈ effectsOf code) :
    effect ≤ 2 := by
  obtain ⟨piece, -, h⟩ := List.mem_flatMap.1 h
  cases piece with
  | plain i =>
    obtain rfl := List.mem_singleton.1 h
    exact i.effect_le
  | guarded test inner =>
    rcases List.mem_cons.1 h with rfl | h
    · cases test <;> decide
    · obtain ⟨i, -, rfl⟩ := List.mem_map.1 h
      exact i.effect_le

end Piece

theorem Body.track_le {effects : List Int} (h : ∀ effect ∈ effects, effect ≤ 2)
    (depths : Int × Int) :
    (effects.foldl track depths).2 ≤ max depths.2 (depths.1 + 2 * effects.length) := by
  induction effects generalizing depths with
  | nil => exact le_max_left _ _
  | cons effect effects ih =>
    obtain ⟨heffect, h⟩ := List.forall_mem_cons.1 h
    have hle := ih h (track depths effect)
    rw [List.foldl_cons, List.length_cons]
    simp only [track] at hle ⊢
    omega

/-! ### Designs -/

namespace MethodDesign

/-- What the types at hand are where the branches of a design lead. -/
def typings (d : MethodDesign) : List Typing :=
  d.frames.map fun locals =>
    { locals := Typing.places d.maxLocals.toNat (locals.map some), stack := [] }

/-- The code of a design fits the descriptor, and the frames are those that its branches need. -/
structure Checked (d : MethodDesign) : Prop where
  /-- The descriptor tells what the method gives, and the code gives it. -/
  code : ∃ signature, Descriptor.signature? d.descriptor = some signature ∧
    Piece.check? signature.result? d.code (Typing.start d.maxLocals.toNat d.initial) =
      some d.typings
  /-- The arguments fit into the local variables. -/
  fits : ValueType.slotsOf d.initial ≤ d.maxLocals.toNat
  /-- The depth of the operand stack can be told. -/
  deepest : d.deepest ≤ 65535

/-- Short code does not make the operand stack too deep. -/
theorem deepest_le {d : MethodDesign} (h : Piece.spanOf d.code ≤ 1000) : d.deepest ≤ 65535 := by
  have heffects : ∀ effect ∈ Piece.effectsOf d.code, effect ≤ 2 :=
    fun _ h => Piece.effect_le_of_mem h
  have hle := Body.track_le heffects (0, 0)
  have hlength := Piece.length_effectsOf_le d.code
  unfold deepest
  simp only at hle
  omega

variable {framed : Bool} {pool : ConstantPool} {d : MethodDesign} {result? : Option ValueType}
  {body : Code} {lines : List Line} {stop : Point} {targets : List Nat}

/-- The greatest depth that paths come to is the limit of the body. -/
theorem isGreatest_maxStack (hbody : d.Body framed pool body) (hdeepest : d.deepest ≤ 65535)
    (h : Listing pool result? body.instructions ⟨0, Typing.start d.maxLocals.toNat d.initial⟩ lines
      stop targets d.typings)
    (heffects : Piece.effectsOf d.code = lines.map Line.effect ++ [(Instr.ret result?).effect]) :
    IsGreatest {depth | ∃ p, Code.Reached pool d.initial body p ∧ p.typing.depth = depth}
      body.maxStack.toNat := by
  have hgreatest := h.isGreatest_depth rfl
  rw [← heffects] at hgreatest
  obtain ⟨⟨p, hp, hdepth⟩, hbound⟩ := hgreatest
  have hmax : (body.maxStack.toNat : Int) = d.deepest := by
    rw [hbody.maxStack, ClassWeave.Body.maxStack, if_pos hdeepest]
    have hnonneg : 0 ≤ d.deepest := by
      rw [MethodDesign.deepest, ← hdepth]
      exact Int.natCast_nonneg _
    show ((UInt16.ofNat d.deepest.toNat).toNat : Int) = d.deepest
    rw [toNat_ofNat_half (by omega)]
    omega
  unfold Code.Reached
  rw [hbody.maxLocals]
  refine ⟨⟨p, hp, ?_⟩, ?_⟩
  · have heq : (p.typing.depth : Int) = body.maxStack.toNat := by
      rw [hmax, hdepth, MethodDesign.deepest]
    exact Int.ofNat_inj.1 heq
  · rintro depth ⟨q, hq, rfl⟩
    have hle := hbound ⟨q, hq, rfl⟩
    rw [← MethodDesign.deepest, ← hmax] at hle
    exact Int.ofNat_le.1 hle

/-- The frames of the body lie where its branches lead. -/
theorem hasFrames (hlocals : body.maxLocals = d.maxLocals)
    (h : Listing pool result? body.instructions ⟨0, Typing.start d.maxLocals.toNat d.initial⟩ lines
      stop targets d.typings)
    (hframes : d.IsFrameTable framed pool targets body.attributes) :
    if framed then
      Code.HasFrames pool d.initial body ((Line.points lines stop).map Point.offset)
    else body.attributes = [] := by
  have hreached := List.forall₂_map_right_iff.1 h.reached
  unfold IsFrameTable at hframes
  cases framed with
  | false => simpa using hframes
  | true =>
    rw [if_pos rfl]
    by_cases hnone : d.frames = []
    · -- no frames, so no branches
      rw [if_neg fun hsome => hsome.2 hnone] at hframes
      rw [hnone, List.forall₂_nil_right_iff] at hreached
      refine .inl ⟨fun start hstart target hjumps => ?_, hframes⟩
      have htarget := h.mem_targets.2 ⟨start, hstart, hjumps⟩
      rw [hreached] at htarget
      exact absurd htarget List.not_mem_nil
    · rw [if_pos ⟨rfl, hnone⟩] at hframes
      obtain ⟨name, payload, htable, hname, -, hdecode⟩ := hframes
      have hzip := forall₂_zipWith (fun offset locals =>
        ({ offset, locals := locals.map some, stack := [] } : StackMap.Frame)) hreached
      refine .inr ⟨name, payload, _, htable, hname, hdecode, fun target => ?_,
        fun frame hframe => ?_⟩
      · rw [← h.mem_targets]
        constructor
        · intro htarget
          obtain ⟨frame, hframe, _, -, rfl⟩ := exists_of_mem_left hzip htarget
          exact ⟨_, hframe, rfl⟩
        · rintro ⟨frame, hframe, rfl⟩
          obtain ⟨target, htarget, _, -, rfl⟩ := exists_of_mem_right hzip hframe
          exact htarget
      · obtain ⟨target, -, locals, hpoint, rfl⟩ := exists_of_mem_right hzip hframe
        refine ⟨rfl, ?_⟩
        unfold Code.Reached
        rw [hlocals]
        exact h.flows_iff.2 hpoint

/-- **A method that realizes a checked design is verified.** -/
theorem Realized.verified {m : Member} (h : d.Realized framed pool m) (hd : d.Checked) :
    m.Verified framed pool := by
  obtain ⟨signature, hsignature, hcheck⟩ := hd.code
  obtain ⟨name, body, htable, -, hbody⟩ := h.body
  obtain ⟨targets, hlocated, hframes⟩ := hbody.code
  obtain ⟨lines, stop, hlisting, heffects⟩ := hlocated.exists_listing hcheck [] rfl
  rw [List.nil_append] at hlisting
  have hinitial : d.initial =
      (if m.isInstance then [.ref] else []) ++ signature.parameters := by
    rw [initial, hsignature, Member.isInstance, h.access]
    cases d.access.has Access.staticFlag <;> rfl
  have hcode : m.code? = some body := by
    rw [Member.code?, htable]
    rfl
  have hfits : ValueType.slotsOf d.initial ≤ body.maxLocals.toNat := by
    rw [hbody.maxLocals]
    exact hd.fits
  have hmem {p : Point} (hp : Code.Reached pool d.initial body p) : p ∈ Line.points lines stop := by
    unfold Code.Reached at hp
    rw [hbody.maxLocals] at hp
    exact hlisting.flows_iff.1 hp
  refine ⟨d.descriptor, signature, body, h.descriptor, hsignature, hcode, ?_⟩
  rw [← hinitial]
  exact {
    handlers := hbody.handlers
    fits := hfits
    splits := ⟨_, hlisting.splits, hasFrames hbody.maxLocals hlisting hframes⟩
    locals := fun p hp => Code.length_locals_of_reached hfits hp
    goesOn := fun p hp => hlisting.goesOn (hmem hp)
    joins := fun p q hp hq heq =>
      congrArg Point.typing (hlisting.row.eq_of_offset_eq (hmem hp) (hmem hq) heq)
    deepest := isGreatest_maxStack hbody hd.deepest hlisting heffects }

/-- The name and the descriptor of a design. -/
def texts (d : MethodDesign) : String × String := (d.name, d.descriptor)

/-- Methods that realize checked designs are verified, under the names of these. -/
theorem forall₂_verifiedAs {designs : List MethodDesign} {ms : List Member}
    (h : List.Forall₂ (Realized framed pool) designs ms) (hd : ∀ d ∈ designs, d.Checked) :
    List.Forall₂ (Member.VerifiedAs framed pool) (designs.map texts) ms := by
  induction h with
  | nil => exact .nil
  | cons hm _ ih =>
    obtain ⟨hfirst, hrest⟩ := List.forall_mem_cons.1 hd
    exact .cons ⟨hm.name, hm.descriptor, hm.verified hfirst⟩ (ih hrest)

end MethodDesign

/-! Generated code is checked by running the checker on it. -/

attribute [simp] Typing.take? Typing.exchange? Instr.transfer? Instr.distance? Instr.straight?
  Instr.through? Test.jump Piece.check?

end ClassWeave
