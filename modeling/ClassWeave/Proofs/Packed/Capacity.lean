import ClassWeave.Proofs.Machine.Memory
import ClassWeave.Proofs.Machine.Step
import ClassWeave.Proofs.Packed.Code

/-!
# The buffer of a packed class

The class keeps one buffer, which is replaced by a larger one when a slot lies beyond its end.  Seen
as memory without an end, it does not change when that happens.

* `Packed.memory`, `Packed.Holds`, `Packed.Ready` : the memory behind the buffer, and what holds of
  the buffer between two calls.
* `Packed.exists_staticInit` : setting up the class makes a buffer of zeros.
* `Packed.exists_capacity` : making room for a slot changes neither the memory nor any instance.
-/

namespace ClassWeave

namespace Packed

/-- The memory behind the buffer of the class; all zeros as long as there is no buffer. -/
def memory (owner : String) (h : Heap) : Memory :=
  match h.statics (dataMember owner) with
  | .ref (some o) => .ofBytes (((h.buffer? o).map (·.bytes)).getD [])
  | _ => .ofBytes []

/-- The buffer of the class. -/
structure Holds (owner : String) (h : Heap) (o : Nat) (b : Buffer) : Prop where
  /-- The static field leads to it. -/
  data : h.statics (dataMember owner) = .ref (some o)
  /-- It is there. -/
  buffer : h.buffer? o = some b
  /-- Its size is an integer. -/
  size : b.bytes.length < 2 ^ 31

/-- The class has a buffer, or none yet. -/
def Ready (owner : String) (h : Heap) : Prop :=
  h.statics (dataMember owner) = .null ∨ ∃ o b, Holds owner h o b

/-- Nothing that the class keeps has changed, but for the size of its buffer. -/
structure Preserves (owner : String) (h h' : Heap) : Prop where
  /-- The memory is the same. -/
  memory : memory owner h' = memory owner h
  /-- All instances are the same. -/
  instances : h.SameInstances h'

section

variable {owner : String} {h h' h'' : Heap} {o : Nat} {b b' : Buffer}

theorem Preserves.refl (owner : String) (h : Heap) : Preserves owner h h := ⟨rfl, .refl h⟩

theorem Preserves.trans (hfirst : Preserves owner h h') (hthen : Preserves owner h' h'') :
    Preserves owner h h'' :=
  ⟨hthen.memory.trans hfirst.memory, hfirst.instances.trans hthen.instances⟩

theorem Holds.ready (hb : Holds owner h o b) : Ready owner h := .inr ⟨o, b, hb⟩

theorem Holds.memory_eq (hb : Holds owner h o b) : memory owner h = .ofBytes b.bytes := by
  rw [memory, hb.data]
  simp only [hb.buffer, Option.map_some, Option.getD_some]

theorem memory_of_null (hnull : h.statics (dataMember owner) = .null) :
    memory owner h = .ofBytes [] := by
  rw [memory, hnull]
  rfl

/-- Another buffer with the same memory in place of the old one. -/
theorem holds_replaced (hsize : b.bytes.length < 2 ^ 31) (hb : h.buffer? o = some b)
    (hmemory : Memory.ofBytes b.bytes = memory owner h) :
    Holds owner (h.setStatic (dataMember owner) (.ref (some o))) o b ∧
      Preserves owner h (h.setStatic (dataMember owner) (.ref (some o))) := by
  have hholds : Holds owner (h.setStatic (dataMember owner) (.ref (some o))) o b :=
    ⟨if_pos rfl, hb, hsize⟩
  exact ⟨hholds, hholds.memory_eq.trans hmemory, h.sameInstances_setStatic _ _⟩

end

/-! ### Setting up the class -/

section

variable {P : Program} {owner : String} {h : Heap} {size slot stride : Nat}

/-- A buffer of zeros is made in place of none. -/
theorem exists_allocated (hnull : h.statics (dataMember owner) = .null) (hsize : size < 2 ^ 31) :
    ∃ h' o b, Holds owner h' o b ∧ Preserves owner h h' ∧ b.bytes.length = size ∧
      ∀ {code stack locals r h''}, P.Completes code ⟨stack, locals, h'⟩ r h'' →
        P.Completes (.plain (.push (.int (.ofNat size))) ::
          .plain (.invoke .static Native.allocate.ref) :: .plain (.putStatic (dataMember owner)) ::
            code) ⟨stack, locals, h⟩ r h'' := by
  let zeros : Buffer := { bytes := .replicate size 0, position := 0 }
  have hbuffer : (h.add (.buffer zeros)).2.buffer? h.objects.length = some zeros := by
    rw [Heap.buffer?_add, if_pos rfl]
  have hzeros : Memory.ofBytes zeros.bytes = .ofBytes [] := by
    funext i
    by_cases hi : i < size <;> simp [zeros, Memory.ofBytes, hi]
  have hmemory : Memory.ofBytes zeros.bytes = memory owner (h.add (.buffer zeros)).2 := by
    have hnull' : (h.add (.buffer zeros)).2.statics (dataMember owner) = .null := hnull
    rw [hzeros, memory_of_null hnull']
  have hlength : zeros.bytes.length = size := List.length_replicate
  obtain ⟨hholds, hkept⟩ := holds_replaced (hlength ▸ hsize) hbuffer hmemory
  refine ⟨_, _, zeros, hholds, ?_, hlength, fun hrest => ?_⟩
  · refine ⟨?_, (h.sameInstances_add zeros).trans hkept.instances⟩
    rw [hkept.memory, ← hmemory, hzeros, memory_of_null hnull]
  · refine .plain rfl rfl ?_
    refine .native .allocate (Native.run?_allocate hsize) ?_
    exact .plain rfl rfl hrest

/-- **Setting up the class** makes a buffer of zeros. -/
theorem exists_staticInit (hnull : h.statics (dataMember owner) = .null) (hsize : size < 2 ^ 31) :
    ∃ h', Ready owner h' ∧ Preserves owner h h' ∧
      P.Completes (staticInitCode owner (.ofNat size)) ⟨[], localsOf [], h⟩ none h' := by
  obtain ⟨h', o, b, hholds, hkept, -, hrun⟩ := exists_allocated (P := P) hnull hsize
  exact ⟨h', hholds.ready, hkept, hrun .ret_none⟩

/-! ### Making room for a slot -/

/-- There is a buffer after the first branch, an empty one if there was none. -/
theorem exists_buffer (hready : Ready owner h) : ∃ h' o b, Holds owner h' o b ∧
    Preserves owner h h' ∧ ∀ {code stack locals r h''}, P.Completes code ⟨stack, locals, h'⟩ r h'' →
      P.Completes (.plain (.getStatic (dataMember owner)) ::
        .guarded .nonNull (allocateEmpty owner) :: code) ⟨stack, locals, h⟩ r h'' := by
  rcases hready with hnull | ⟨o, b, hholds⟩
  · have hempty : 0 < 2 ^ 31 := by decide
    obtain ⟨h', o, b, hholds, hkept, -, hrun⟩ := exists_allocated (P := P) hnull hempty
    refine ⟨h', o, b, hholds, hkept, fun hrest => ?_⟩
    exact .getStatic hnull (.enter rfl (hrun hrest))
  · refine ⟨h, o, b, hholds, .refl owner h, fun hrest => ?_⟩
    exact .getStatic hholds.data (.skip rfl hrest)

/-- The greater of two integers, one of which is small and not negative. -/
theorem exists_max {required : Nat} (hrequired : required < 2 ^ 31) (w : Int32) : ∃ size,
    required ≤ size ∧ size < 2 ^ 31 ∧
      (if (Int32.ofNat required).toInt ≤ w.toInt then w else .ofNat required) = .ofNat size := by
  have hint : (Int32.ofNat required).toInt = required := Int32.toInt_ofNat_of_lt hrequired
  rw [hint]
  -- a double that wraps to a negative number is not the greater one
  by_cases hle : (required : Int) ≤ w.toInt
  · have hlt := w.toInt_lt
    have hw : Int32.ofNat w.toInt.toNat = w := by
      refine Int32.toInt_inj.1 ?_
      rw [Int32.toInt_ofNat_of_lt (by omega)]
      omega
    refine ⟨w.toInt.toNat, by omega, by omega, ?_⟩
    rw [if_pos hle, hw]
  · exact ⟨required, Nat.le_refl _, hrequired, if_neg hle⟩

/-- The buffer is replaced by a larger one with the same memory. -/
theorem exists_grown {o required : Nat} {b : Buffer} {locals : Nat → Option Value}
    (hholds : Holds owner h o b) (hrequired : required < 2 ^ 31)
    (hsmall : b.bytes.length < required) (hlocal : locals 1 = some (.int (.ofNat required))) :
    ∃ h' o' b', Holds owner h' o' b' ∧ Preserves owner h h' ∧ required ≤ b'.bytes.length ∧
      ∀ {code stack r h''}, P.Completes code ⟨stack, locals, h'⟩ r h'' →
        P.Completes ((growBuffer owner).map .plain ++ code) ⟨stack, locals, h⟩ r h'' := by
  obtain ⟨size, hle, hsize, hmax⟩ := exists_max hrequired (.ofNat b.bytes.length * 2)
  have hroom : b.bytes.length ≤ size := by omega
  obtain ⟨h₁, h₂, h₃, new, filled, hcopied⟩ := Heap.exists_copied hholds.buffer hroom hsize
  obtain ⟨hdata₁, hdata₂, hdata₃⟩ := hcopied.statics
  obtain ⟨hbuffer, hlength⟩ := hcopied.buffer
  obtain ⟨position, hold⟩ := hcopied.old
  -- until the static field is written, it leads to the old buffer
  have hold₁ : h₁.statics (dataMember owner) = .ref (some o) := by rw [hdata₁, hholds.data]
  have hold₂ : h₂.statics (dataMember owner) = .ref (some o) := by rw [hdata₂, hholds.data]
  have hmemory : memory owner h₃ = memory owner h := by
    have hholds₃ : Holds owner h₃ o { b with position } :=
      ⟨by rw [hdata₃, hholds.data], hold, hholds.size⟩
    rw [hholds₃.memory_eq, hholds.memory_eq]
  have hfilled : Memory.ofBytes filled.bytes = memory owner h₃ := by
    rw [hmemory, hholds.memory_eq, hcopied.memory]
  obtain ⟨hholds', hkept⟩ := holds_replaced (hlength ▸ hsize) hbuffer hfilled
  have hpreserves : Preserves owner h (h₃.setStatic (dataMember owner) (.ref (some new))) :=
    ⟨hkept.memory.trans hmemory, hcopied.instances.trans hkept.instances⟩
  refine ⟨_, new, filled, hholds', hpreserves, hlength ▸ hle, ?_⟩
  intro code stack r h'' hrest
  have hgreater : Native.max.run? (.int (.ofNat b.bytes.length * 2) :: .int (.ofNat required) ::
      stack) h₁ = some (.int (.ofNat size) :: stack, h₁) := by
    rw [Native.run?, hmax]
  -- the size is the greater of what is required and the double of the old size
  refine .getStatic hholds.data ?_
  refine .native .rewind (hcopied.rewind _) ?_
  refine .plain rfl rfl ?_
  refine .load hlocal rfl ?_
  refine .getStatic hold₁ ?_
  refine .native .size (hcopied.capacity _) ?_
  refine .plain rfl rfl ?_
  refine .plain rfl rfl ?_
  refine .native .max hgreater ?_
  refine .native .allocate (hcopied.allocate _) ?_
  refine .plain rfl rfl ?_
  refine .getStatic hold₂ ?_
  refine .native .copy (hcopied.copy _) ?_
  refine .plain rfl rfl ?_
  exact .plain rfl rfl hrest

/-- **Making room for a slot** changes neither the memory nor any instance. -/
theorem exists_capacity (hready : Ready owner h) (hfits : (slot + 1) * stride < 2 ^ 31) :
    ∃ h' o b, Holds owner h' o b ∧ Preserves owner h h' ∧ (slot + 1) * stride ≤ b.bytes.length ∧
      P.Completes (capacityCode owner (.ofNat stride)) ⟨[], localsOf [.int (.ofNat slot)], h⟩ none
        h' := by
  obtain ⟨h₁, o, b, hholds, hkept, hrun⟩ := exists_buffer (P := P) hready
  have hend : (Int32.ofNat slot + 1) * .ofNat stride = .ofNat ((slot + 1) * stride) := by
    rw [Int32.ofNat_mul, Int32.ofNat_add]
    rfl
  have hint : (Int32.ofNat ((slot + 1) * stride)).toInt = ((slot + 1) * stride : Nat) :=
    Int32.toInt_ofNat_of_lt hfits
  have hint' : (Int32.ofNat b.bytes.length).toInt = b.bytes.length :=
    Int32.toInt_ofNat_of_lt hholds.size
  -- local variable 1: where the slot ends
  let locals : Nat → Option Value := fun i =>
    if i = 1 then some (.int (.ofNat ((slot + 1) * stride)))
    else localsOf [.int (.ofNat slot)] i
  have hfront {h' : Heap}
      (hrest : P.Completes [.guarded .ge (growBuffer owner), .plain (.ret none)]
        ⟨[.int (.ofNat ((slot + 1) * stride)), .int (.ofNat b.bytes.length)], locals, h₁⟩ none h') :
      P.Completes (capacityCode owner (.ofNat stride)) ⟨[], localsOf [.int (.ofNat slot)], h⟩ none
        h' := by
    refine hrun ?_
    refine .load rfl rfl ?_
    refine .plain rfl rfl ?_
    refine .plain rfl rfl ?_
    refine .plain rfl rfl ?_
    refine .plain rfl rfl ?_
    refine .plain rfl (by rw [hend]; rfl) ?_
    refine .getStatic hholds.data ?_
    refine .native .size (Native.run?_size hholds.buffer) ?_
    exact .load rfl rfl hrest
  -- the buffer reaches to the end of the slot, or has to grow
  by_cases hlarge : (slot + 1) * stride ≤ b.bytes.length
  · have htest : Test.run? .ge [.int (.ofNat ((slot + 1) * stride)), .int (.ofNat b.bytes.length)] =
        some (true, []) := by
      rw [Test.run?, hint, hint', decide_eq_true (by omega)]
    exact ⟨h₁, o, b, hholds, hkept, hlarge, hfront (.skip htest .ret_none)⟩
  · have htest : Test.run? .ge [.int (.ofNat ((slot + 1) * stride)), .int (.ofNat b.bytes.length)] =
        some (false, []) := by
      rw [Test.run?, hint, hint', decide_eq_false (by omega)]
    have hlocal : locals 1 = some (.int (.ofNat ((slot + 1) * stride))) := rfl
    obtain ⟨h', o', b', hholds', hkept', hlarge', hgrow⟩ :=
      exists_grown (P := P) hholds hfits (by omega) hlocal
    exact ⟨h', o', b', hholds', hkept.trans hkept', hlarge',
      hfront (.enter htest (hgrow .ret_none))⟩

end

end Packed

end ClassWeave
