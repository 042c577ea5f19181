import ClassWeave.Attribute
import ClassWeave.Descriptor
import ClassWeave.Instruction

/-!
# Method bodies under construction

A body grows instruction by instruction, and keeps count of the operand stack: every instruction
comes with what it adds to the depth, and the deepest stack seen becomes the limit of the finished
body.  A branch is written with distance zero and pointed at its target later.  The emitter is
`Bytecode`; what it interns in a pool on the way stands in `Body/Emission`.

* `Body.op`, `op8`, `op16` : an instruction without operand, or with one of a byte or half word;
  `op`, `op_u8` and `op_u16`.
* `Body.branch`, `Body.patch` : a branch, and pointing it at the current position.
* `Body.pushDefault`, `loadParameter`, `returnValue` : the instruction that fits a kind of value;
  `push_default`, `load_param` and `ret`.
* `Body.toCode` : the finished body, `into_code`.
-/

namespace ClassWeave

/-- A method body under construction. -/
structure Body where
  /-- The instructions so far. -/
  code : Array UInt8 := #[]
  /-- The depth of the operand stack after them. -/
  depth : Int := 0
  /-- The greatest depth so far. -/
  deepest : Int := 0
  deriving DecidableEq, Repr

namespace Body

variable (b : Body)

/-- Where the next instruction will start. -/
def position : Nat := b.code.size

/-- The limit of the operand stack, as far as a half word can tell it. -/
def maxStack : UInt16 := if b.deepest ≤ 65535 then UInt16.ofNat b.deepest.toNat else 65535

/-- Notes that the depth of the stack changes by `effect`. -/
def stack (effect : Int) : Body :=
  { b with depth := b.depth + effect, deepest := max b.deepest (b.depth + effect) }

/-- The body with `byte` at its end. -/
def emit (byte : UInt8) : Body := { b with code := b.code.push byte }

/-- An instruction without operand, which changes the depth of the stack by `effect`. -/
def op (opcode : UInt8) (effect : Int) : Body := (b.emit opcode).stack effect

/-- An instruction with a byte `operand`. -/
def op8 (opcode operand : UInt8) (effect : Int) : Body :=
  ((b.emit opcode).emit operand).stack effect

/-- An instruction with a half word `operand`. -/
def op16 (opcode : UInt8) (operand : UInt16) (effect : Int) : Body :=
  (((b.emit opcode).emit (UInt8.ofNat (operand.toNat / 256))).emit
    (UInt8.ofNat operand.toNat)).stack effect

/-- A branch that leads nowhere yet. -/
def branch (opcode : UInt8) (effect : Int) : Body := b.op16 opcode 0 effect

/-- The farthest start from which a distance is measured: a start is taken for a number of 64 bits
with a sign. -/
def farthestStart : Nat := 2 ^ 63 - 1

/-- Points the branch that starts at `start` to the current position.  Nothing is written when the
distance is too far for a half word or the branch does not lie within the body. -/
def patch (start : Nat) : Except Malformation Body :=
  let distance : Int := b.position - (min start farthestStart : Nat)
  if distance < -32768 ∨ 32767 < distance then .error (.branchOutOfRange distance)
  else if start + 3 ≤ b.position then
    let word := (distance % 65536).toNat
    .ok { b with
      code := (b.code.setIfInBounds (start + 1) (UInt8.ofNat (word / 256))).setIfInBounds
        (start + 2) (UInt8.ofNat word) }
  else .error .truncated

/-- Pushes the object whose method runs (`aload_0`). -/
def this : Body := b.op Opcode.aload0 1

/-- Pushes the default value of `kind`: zero, false or null. -/
def pushDefault (kind : ValueKind) : Body :=
  match kind with
  | .long => b.op Opcode.lconst0 2
  | .double => b.op Opcode.dconst0 2
  | .float => b.op Opcode.fconst0 1
  | .object _ | .array _ => b.op Opcode.aconstNull 1
  | _ => b.op Opcode.iconst0 1

/-- Pushes the first parameter of a method of an object, a value of `kind`. -/
def loadParameter (kind : ValueKind) : Body :=
  match kind with
  | .long => b.op Opcode.lload1 2
  | .double => b.op Opcode.dload1 2
  | .float => b.op Opcode.fload1 1
  | .object _ | .array _ => b.op Opcode.aload1 1
  | _ => b.op Opcode.iload1 1

/-- Returns a value of the kind, or nothing if there is none. -/
def returnValue (kind? : Option ValueKind) : Body :=
  match kind? with
  | none => b.op Opcode.returnVoid 0
  | some .long => b.op Opcode.lreturn (-2)
  | some .double => b.op Opcode.dreturn (-2)
  | some .float => b.op Opcode.freturn (-1)
  | some (.object _) | some (.array _) => b.op Opcode.areturn (-1)
  | some _ => b.op Opcode.ireturn (-1)

/-- The finished body of a method with `maxLocals` local variable slots. -/
def toCode (maxLocals : UInt16) : Code :=
  { maxStack := b.maxStack, maxLocals, instructions := b.code.toList, handlers := [],
    attributes := [] }

end Body

end ClassWeave
