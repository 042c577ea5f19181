import ClassWeave.Proofs.Pooled.Apply
import ClassWeave.Proofs.Verifier.Design

/-!
# The reset of pooled units passes the verifier

* `Pooled.check?_resetFieldCode`, `track_resetFieldCode` : assigning to one field leaves the types
  at hand as they are, and takes the operand stack as deep as an object and a value.
* `Pooled.checked_resetDesign` : a reset, whatever it assigns.
* `Pooled.Applied.verified` : the method that pooling appends is verified.
-/

namespace ClassWeave

/-- The default value of a type is of that type. -/
theorem ValueType.type_zero (type : ValueType) : type.zero.type = type := by
  cases type <;> rfl

namespace Pooled

open Piece (check? effectsOf)

variable {owner : String} {targets : List (String × String)} {target : String × String}
  {code : List Piece} {kind : ValueKind}

theorem resetType_of_parse (hparse : ValueKind.parse target.2 = .ok kind) :
    resetType target.2 = kind.type := by
  simp only [resetType, hparse]

/-! ### One field -/

theorem check?_resetFieldCode (hparse : ValueKind.parse target.2 = .ok kind)
    (hplain : kind.Plain) :
    check? none (resetFieldCode owner target ++ code) ⟨[some .ref], []⟩ =
      check? none code ⟨[some .ref], []⟩ := by
  have hfield := Descriptor.fieldType?_of_parse hparse hplain
  simp [resetFieldCode, resetType_of_parse hparse, hfield, ValueType.type_zero, ValueType.slots]

theorem track_resetFieldCode (hparse : ValueKind.parse target.2 = .ok kind) (deepest : Int) :
    (effectsOf (resetFieldCode owner target)).foldl Body.track (0, deepest) =
      (0, max (max deepest 1) (1 + kind.slots)) := by
  have hpush : (Instr.push (resetType target.2).zero).effect = kind.slots := by
    rw [Instr.effect, resetType_of_parse hparse, ValueType.type_zero, ValueKind.slots_type]
  have hput : (Instr.putField { owner, name := target.1, descriptor := target.2 }).effect =
      -1 - kind.slots := by
    rw [Instr.effect, Descriptor.slots_of_parse hparse]
  have heffects : effectsOf (resetFieldCode owner target) =
      [(1 : Int), kind.slots, -1 - kind.slots] := by
    rw [← hput, ← hpush]
    rfl
  rw [heffects]
  simp only [List.foldl_cons, List.foldl_nil, Body.track, Prod.mk.injEq]
  omega

/-! ### The whole reset -/

section

variable (hkinds : ∀ target ∈ targets, ∃ kind, ValueKind.parse target.2 = .ok kind ∧ kind.Plain)
include hkinds

theorem check?_resetCode :
    check? none (resetCode owner targets) ⟨[some .ref], []⟩ = some [] := by
  induction targets with
  | nil => rfl
  | cons target targets ih =>
    obtain ⟨⟨kind, hparse, hplain⟩, hkinds⟩ := List.forall_mem_cons.1 hkinds
    rw [resetCode, List.flatMap_cons, List.append_assoc, check?_resetFieldCode hparse hplain]
    exact ih hkinds

/-- The operand stack is empty between the fields, so it gets no deeper than for one of them. -/
theorem track_resetCode {deepest : Int} (hdeepest : deepest ≤ 3) :
    ((effectsOf (resetCode owner targets)).foldl Body.track (0, deepest)).2 ≤ 3 := by
  induction targets generalizing deepest with
  | nil =>
    show max deepest (0 + 0) ≤ 3
    omega
  | cons target targets ih =>
    obtain ⟨⟨kind, hparse, -⟩, hkinds⟩ := List.forall_mem_cons.1 hkinds
    have hslots : kind.slots ≤ 2 := kind.slots_type ▸ kind.type.slots_le
    rw [resetCode, List.flatMap_cons, List.append_assoc, Piece.effectsOf_append, List.foldl_append,
      track_resetFieldCode hparse]
    exact ih hkinds (by omega)

theorem checked_resetDesign : (resetDesign owner targets).Checked := by
  have hsignature : Descriptor.signature? Scan.plainDescriptor =
      some { parameters := [], result? := none } := by decide
  have haccess : Access.protectedFlag.has Access.staticFlag = false := by decide
  have hinitial : (resetDesign owner targets).initial = [.ref] := by
    rw [MethodDesign.initial, resetDesign, haccess, hsignature]
    rfl
  refine ⟨⟨_, hsignature, ?_⟩, ?_, ?_⟩
  · rw [hinitial]
    exact check?_resetCode hkinds
  · rw [hinitial]
    exact (by decide : 1 ≤ 1)
  · have hle : (resetDesign owner targets).deepest ≤ 3 := track_resetCode hkinds (by decide)
    omega

end

/-- **The method that pooling appends is verified**, if the unit has plain types. -/
theorem Applied.verified {u t : ClassFile} (h : Applied owner u t) (hplain : u.HasPlainTypes) :
    ∃ texts, (texts = [] ∨ texts = [(Scan.resetName, Scan.plainDescriptor)]) ∧
      List.Forall₂ (Member.VerifiedAs u.needsFrames t.pool) texts
        (t.methods.drop u.methods.length) := by
  obtain ⟨designs, rfl | ⟨targets, rfl, htargets, hkinds⟩, hmethods⟩ := h.methods
  · exact ⟨[], .inl rfl, MethodDesign.forall₂_verifiedAs hmethods (by simp)⟩
  refine ⟨_, .inr rfl, MethodDesign.forall₂_verifiedAs hmethods fun d hd => ?_⟩
  obtain rfl := List.mem_singleton.1 hd
  refine checked_resetDesign fun target htarget => ?_
  obtain ⟨kind, hparse⟩ := hkinds target htarget
  obtain ⟨f, hf, hinstance, hdescriptor⟩ := exists_of_mem_resetTargets htargets htarget
  exact ⟨kind, hparse, hplain f hf hinstance target.2 kind hdescriptor hparse⟩

end Pooled

end ClassWeave
