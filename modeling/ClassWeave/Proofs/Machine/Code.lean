import ClassWeave.Proofs.Machine.Instr
import ClassWeave.Proofs.Verifier.Signature

/-!
# Code in pieces

Generated bodies only branch forward, over a few instructions.  So their code is a row of pieces: an
instruction, or instructions that are skipped when a test succeeds.

* `Piece`, `Encodes` : code in pieces, and the bytes that it is stored in.
* `Located` : the same with the offset of the code, and the offsets to which its branches lead.
* `Encodes.append`, `Encodes.mono` : code in a row, and code in a growing pool.
-/

namespace ClassWeave

/-- What a branch tests. -/
inductive Test where
  /-- The top of the stack is not null. -/
  | nonNull
  /-- The integer below the top of the stack is at least the one at the top. -/
  | ge
  deriving DecidableEq, Repr

namespace Test

/-- The opcode of the branch. -/
def opcode : Test → UInt8
  | nonNull => Opcode.ifNonNull
  | ge => Opcode.ifIcmpge

/-- The branch over a distance. -/
def jump : Test → Int → Instr
  | nonNull => .ifNonNull
  | ge => .ifGe

/-- What the branch adds to the depth of the operand stack. -/
def effect : Test → Int
  | nonNull => -1
  | ge => -2

theorem ofHalf?_opcode (test : Test) (pool : ConstantPool) (operand : UInt16) :
    Instr.ofHalf? pool test.opcode operand = some (test.jump (Int.bmod operand.toNat 65536)) := by
  cases test <;> rfl

/-- A branch over a distance that fits into a half word, with its sign. -/
theorem instr?_half (test : Test) (pool : ConstantPool) {distance : Nat}
    (h : distance < 2 ^ 15) :
    (Op.half test.opcode (.ofNat distance)).instr? pool = some (test.jump distance) := by
  have hsmall : (UInt16.ofNat distance).toNat = distance := by
    rw [UInt16.toNat_ofNat']
    omega
  have hbmod : Int.bmod (distance : Int) 65536 = distance :=
    Int.bmod_eq_of_le (by omega) (by omega)
  show Instr.ofHalf? _ _ _ = _
  rw [ofHalf?_opcode, hsmall, hbmod]

end Test

/-- A piece of code. -/
inductive Piece where
  /-- An instruction that does not branch. -/
  | plain (i : Instr)
  /-- Instructions that are skipped when a test succeeds. -/
  | guarded (test : Test) (inner : List Instr)
  deriving DecidableEq, Repr

namespace Piece

/-- Whether a piece is a single instruction. -/
def isPlain : Piece → Bool
  | plain _ => true
  | guarded _ _ => false

/-- The most bytes that a piece can take. -/
def span : Piece → Nat
  | plain _ => 3
  | guarded _ inner => 3 + 3 * inner.length

/-- The most bytes that code can take. -/
def spanOf (code : List Piece) : Nat := (code.map span).sum

theorem spanOf_append (code code' : List Piece) :
    spanOf (code ++ code') = spanOf code + spanOf code' := by
  simp [spanOf]

/-- Where the branches of code that starts at an offset lead at the farthest. -/
def farthest : (start : Nat) → List Piece → List Nat
  | _, [] => []
  | start, plain _ :: code => farthest (start + 3) code
  | start, guarded _ inner :: code =>
    (start + (3 + 3 * inner.length)) :: farthest (start + (3 + 3 * inner.length)) code

/-- What the instructions of a piece add to the depth of the operand stack, in a row. -/
def effects : Piece → List Int
  | plain i => [i.effect]
  | guarded test inner => test.effect :: inner.map Instr.effect

/-- What the instructions of code add to the depth of the operand stack, in a row. -/
def effectsOf (code : List Piece) : List Int := code.flatMap effects

theorem effectsOf_append (code code' : List Piece) :
    effectsOf (code ++ code') = effectsOf code ++ effectsOf code' :=
  List.flatMap_append

theorem effectsOf_plain (inner : List Instr) :
    effectsOf (inner.map .plain) = inner.map Instr.effect := by
  induction inner with
  | nil => rfl
  | cons i inner ih => rw [List.map_cons, effectsOf, List.flatMap_cons, ← effectsOf, ih]; rfl

end Piece

/-- The bytes in which code is stored.  A branch leads behind what it skips, and its distance fits
into a half word. -/
inductive Encodes (pool : ConstantPool) : List Piece → Bytes → Prop where
  | nil : Encodes pool [] []
  | plain {op : Op} {i : Instr} {code : List Piece} {bs : Bytes} : op.instr? pool = some i →
      Encodes pool code bs → Encodes pool (.plain i :: code) (op.bytes ++ bs)
  | guarded {test : Test} {inner : List Instr} {inside : Bytes} {code : List Piece} {bs : Bytes} :
      Encodes pool (inner.map .plain) inside → 3 + inside.length < 2 ^ 15 → Encodes pool code bs →
      Encodes pool (.guarded test inner :: code)
        ((Op.half test.opcode (UInt16.ofNat (3 + inside.length))).bytes ++ (inside ++ bs))

theorem Op.length_bytes_le (op : Op) : op.bytes.length ≤ 3 := by
  cases op <;> simp [Op.bytes, bytes16, BigEndian.encode]

theorem Op.bytes_ne_nil (op : Op) : op.bytes ≠ [] := by
  cases op <;> simp [Op.bytes]

namespace Encodes

variable {p q : ConstantPool} {code code' : List Piece} {bs bs' : Bytes}

theorem append (h : Encodes p code bs) (h' : Encodes p code' bs') :
    Encodes p (code ++ code') (bs ++ bs') := by
  induction h with
  | nil => exact h'
  | plain hop _ ih =>
    rw [List.cons_append, List.append_assoc]
    exact .plain hop ih
  | guarded hinner hlen _ _ ih =>
    rw [List.cons_append, List.append_assoc, List.append_assoc]
    exact .guarded hinner hlen ih

theorem mono (hpq : p.Extends q) (h : Encodes p code bs) : Encodes q code bs := by
  induction h with
  | nil => exact .nil
  | plain hop _ ih => exact .plain (Op.instr?_mono hpq hop) ih
  | guarded _ hlen _ ihinner ih => exact .guarded ihinner hlen ih

theorem spanOf_plain (inner : List Instr) : Piece.spanOf (inner.map .plain) = 3 * inner.length := by
  induction inner with
  | nil => rfl
  | cons i inner ih =>
    have hcons : Piece.spanOf ((i :: inner).map .plain) = 3 + Piece.spanOf (inner.map .plain) := by
      simp [Piece.spanOf, Piece.span]
    rw [hcons, ih, List.length_cons]
    omega

theorem length_le (h : Encodes p code bs) : bs.length ≤ Piece.spanOf code := by
  induction h with
  | nil => exact Nat.le_refl 0
  | @plain op i code bs _ _ ih =>
    have hop := op.length_bytes_le
    have hcons : Piece.spanOf (.plain i :: code) = 3 + Piece.spanOf code := by
      simp [Piece.spanOf, Piece.span]
    rw [hcons, List.length_append]
    omega
  | @guarded test inner inside code bs _ _ _ ihinner ih =>
    have hop := (Op.half test.opcode (UInt16.ofNat (3 + inside.length))).length_bytes_le
    have hcons : Piece.spanOf (.guarded test inner :: code) =
        3 + 3 * inner.length + Piece.spanOf code := by
      simp [Piece.spanOf, Piece.span]
    rw [spanOf_plain] at ihinner
    rw [hcons, List.length_append, List.length_append]
    omega

theorem ne_nil (h : Encodes p code bs) (hcode : code ≠ []) : bs ≠ [] := by
  cases h with
  | nil => exact absurd rfl hcode
  | plain => simp [Op.bytes_ne_nil]
  | guarded => simp [Op.bytes_ne_nil]

end Encodes

/-- The bytes in which code is stored that starts at an offset, and the offsets to which its
branches lead. -/
inductive Located (pool : ConstantPool) : Nat → List Piece → Bytes → List Nat → Prop where
  | nil {start : Nat} : Located pool start [] [] []
  | plain {start : Nat} {op : Op} {i : Instr} {code : List Piece} {bs : Bytes}
      {targets : List Nat} : op.instr? pool = some i →
      Located pool (start + op.bytes.length) code bs targets →
      Located pool start (.plain i :: code) (op.bytes ++ bs) targets
  | guarded {start : Nat} {test : Test} {inner : List Instr} {inside : Bytes} {code : List Piece}
      {bs : Bytes} {targets : List Nat} : Encodes pool (inner.map .plain) inside →
      3 + inside.length < 2 ^ 15 →
      Located pool (start + (3 + inside.length)) code bs targets →
      Located pool start (.guarded test inner :: code)
        ((Op.half test.opcode (UInt16.ofNat (3 + inside.length))).bytes ++ (inside ++ bs))
        ((start + (3 + inside.length)) :: targets)

namespace Located

variable {p q : ConstantPool} {start : Nat} {code code' : List Piece} {bs bs' : Bytes}
  {targets targets' : List Nat}

theorem single {op : Op} {i : Instr} (h : op.instr? p = some i) :
    Located p start [.plain i] op.bytes [] := by
  have hrest : Located p (start + op.bytes.length) [] [] [] := .nil
  simpa using Located.plain h hrest

theorem encodes (h : Located p start code bs targets) : Encodes p code bs := by
  induction h with
  | nil => exact .nil
  | plain hop _ ih => exact .plain hop ih
  | guarded hinner hlen _ ih => exact .guarded hinner hlen ih

theorem mono (hpq : p.Extends q) (h : Located p start code bs targets) :
    Located q start code bs targets := by
  induction h with
  | nil => exact .nil
  | plain hop _ ih => exact .plain (Op.instr?_mono hpq hop) ih
  | guarded hinner hlen _ ih => exact .guarded (hinner.mono hpq) hlen ih

theorem append (h : Located p start code bs targets)
    (h' : Located p (start + bs.length) code' bs' targets') :
    Located p start (code ++ code') (bs ++ bs') (targets ++ targets') := by
  induction h with
  | nil => exact h'
  | plain hop _ ih =>
    rw [List.cons_append, List.append_assoc]
    rw [List.length_append, ← Nat.add_assoc] at h'
    exact .plain hop (ih h')
  | @guarded start test inner inside code bs targets hinner hlen _ ih =>
    rw [List.cons_append, List.append_assoc, List.append_assoc]
    have hend : start + ((Op.half test.opcode (UInt16.ofNat (3 + inside.length))).bytes ++
        (inside ++ bs)).length = start + (3 + inside.length) + bs.length := by
      simp [Op.bytes, bytes16, BigEndian.encode]
      omega
    rw [hend] at h'
    exact .guarded hinner hlen (ih h')

/-- Branches lead forward. -/
theorem start_lt (h : Located p start code bs targets) : ∀ target ∈ targets, start < target := by
  induction h with
  | nil => exact fun _ h => absurd h List.not_mem_nil
  | plain _ _ ih =>
    intro target htarget
    have hlt := ih target htarget
    omega
  | guarded _ _ _ ih =>
    intro target htarget
    rcases List.mem_cons.1 htarget with rfl | htarget
    · omega
    · have hlt := ih target htarget
      omega

/-- The targets of the branches come in a row. -/
theorem pairwise_targets (h : Located p start code bs targets) : targets.Pairwise (· < ·) := by
  induction h with
  | nil => exact .nil
  | plain _ _ ih => exact ih
  | guarded _ _ hrest ih => exact .cons hrest.start_lt ih

/-- No branch leads further than it would if all instructions were as long as they may be. -/
theorem targets_le (h : Located p start code bs targets) {bound : Nat} (hstart : start ≤ bound) :
    List.Forall₂ (· ≤ ·) targets (Piece.farthest bound code) := by
  induction h generalizing bound with
  | nil => exact .nil
  | @plain start op i code bs targets _ _ ih =>
    have hop := op.length_bytes_le
    exact ih (by omega)
  | @guarded start test inner inside code bs targets hinner _ _ ih =>
    have hinside := hinner.length_le
    rw [Encodes.spanOf_plain] at hinside
    exact .cons (by omega) (ih (by omega))

end Located

end ClassWeave
