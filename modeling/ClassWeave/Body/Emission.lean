import ClassWeave.Body.Basic

/-!
# Emitting instructions that refer to constants

The emitter is handed the pool by those of its operations that refer to constants.

* `Emission` : computations that extend a body and intern the constants that it refers to.
* `Emission.pushInt` : an integer by the shortest instruction that can push it, `push_int`.
* `Emission.fieldRef`, `methodRef`, `classRef` : an instruction whose operand is interned first, as
  the slot that `intern_field_ref`, `intern_method_ref` or `intern_class` gives.
-/

namespace ClassWeave

/-- Computations that extend a body and the pool that it refers to. -/
abbrev Emission := StateT Body Interning

namespace Emission

/-- Extends the body by `f`. -/
def emit (f : Body → Body) : Emission Unit := modify f

/-- Where the next instruction will start. -/
def position : Emission Nat := return (← get).position

/-- An instruction without operand. -/
def op (opcode : UInt8) (effect : Int) : Emission Unit := emit (·.op opcode effect)

/-- An instruction with a half word `operand`. -/
def op16 (opcode : UInt8) (operand : UInt16) (effect : Int) : Emission Unit :=
  emit (·.op16 opcode operand effect)

/-- Pushes the object whose method runs. -/
def this : Emission Unit := emit Body.this

/-- A branch; yields where it starts. -/
def branch (opcode : UInt8) (effect : Int) : Emission Nat := do
  let start ← position
  emit (·.branch opcode effect)
  return start

/-- Points the branch that starts at `start` to the current position. -/
def patch (start : Nat) : Emission Unit := do
  match (← get).patch start with
  | .ok b => set b
  | .error cause => throw cause

/-- Pushes `value` by the shortest instruction that can push it: one without operand, one with a
byte or a half word, or one that refers to a constant. -/
def pushInt (value : Int32) : Emission Unit := do
  let n := value.toInt
  if -1 ≤ n ∧ n ≤ 5 then
    emit (·.op (UInt8.ofNat (Opcode.iconstM1.toNat + (n + 1).toNat)) 1)
  else if -128 ≤ n ∧ n ≤ 127 then emit (·.op8 Opcode.bipush (UInt8.ofNat (n % 256).toNat) 1)
  else if -32768 ≤ n ∧ n ≤ 32767 then
    emit (·.op16 Opcode.sipush (UInt16.ofNat (n % 65536).toNat) 1)
  else
    let index ← Interning.integer value
    emit (·.op16 Opcode.ldcW index 1)

/-- An instruction on the field `name` of type `descriptor` of the class `owner`. -/
def fieldRef (opcode : UInt8) (owner name descriptor : String) (effect : Int) : Emission Unit := do
  let index ← Interning.fieldRef owner name descriptor
  emit (·.op16 opcode index effect)

/-- An instruction on the method `name` of type `descriptor` of the class `owner`. -/
def methodRef (opcode : UInt8) (owner name descriptor : String) (effect : Int) :
    Emission Unit := do
  let index ← Interning.methodRef owner name descriptor
  emit (·.op16 opcode index effect)

/-- An instruction on the class `name`. -/
def classRef (opcode : UInt8) (name : String) (effect : Int) : Emission Unit := do
  let index ← Interning.classRef name
  emit (·.op16 opcode index effect)

/-- An instruction on the constant `c`. -/
def constant (opcode : UInt8) (c : Constant) (effect : Int) : Emission Unit := do
  let index ← Interning.constant c
  emit (·.op16 opcode index effect)

end Emission

end ClassWeave
