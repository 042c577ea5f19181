import ClassWeave.Malformation

/-!
# Instructions

Method bodies are walked, never interpreted: all that is needed of an instruction is how many
bytes it takes.  For most opcodes that is fixed.  The two switches are padded so that their tables
start at an offset divisible by four, and their length depends on the numbers in front of the
tables; a widened instruction depends on the opcode behind the prefix.

* `Instruction.length` : the length of the instruction in front of a window, from the window and
  from its offset in the body; `instruction_length`, with `switch_padding` and `read_i32`.
* `Instruction.offsets` : where the instructions of a body start, `instruction_offsets`.
* `Instruction.memberSites`, `Instruction.replace` : the instructions that access a field or call a
  method, and others in their places.
-/

namespace ClassWeave

/-! ### Opcodes -/

namespace Opcode

/-- Push null. -/
def aconstNull : UInt8 := 0x01
/-- Push the integer -1; the opcodes after it push 0 to 5. -/
def iconstM1 : UInt8 := 0x02
/-- Push the integer 0. -/
def iconst0 : UInt8 := 0x03
/-- Push the long 0. -/
def lconst0 : UInt8 := 0x09
/-- Push the float 0. -/
def fconst0 : UInt8 := 0x0b
/-- Push the double 0. -/
def dconst0 : UInt8 := 0x0e
/-- Push a signed byte. -/
def bipush : UInt8 := 0x10
/-- Push a signed half word. -/
def sipush : UInt8 := 0x11
/-- Push a constant. -/
def ldcW : UInt8 := 0x13
/-- Load an integer from local slot 0. -/
def iload0 : UInt8 := 0x1a
/-- Load an integer from local slot 1. -/
def iload1 : UInt8 := 0x1b
/-- Load a long from local slot 1. -/
def lload1 : UInt8 := 0x1f
/-- Load a float from local slot 1. -/
def fload1 : UInt8 := 0x23
/-- Load a double from local slot 1. -/
def dload1 : UInt8 := 0x27
/-- Load a reference from local slot 0. -/
def aload0 : UInt8 := 0x2a
/-- Load a reference from local slot 1. -/
def aload1 : UInt8 := 0x2b
/-- Store an integer into local slot 1. -/
def istore1 : UInt8 := 0x3c
/-- Drop the top slot. -/
def pop : UInt8 := 0x57
/-- Push the top slot again. -/
def dup : UInt8 := 0x59
/-- Add integers. -/
def iadd : UInt8 := 0x60
/-- Multiply integers. -/
def imul : UInt8 := 0x68
/-- Add a constant to a local integer. -/
def iinc : UInt8 := 0x84
/-- Branch if one integer is at least another. -/
def ifIcmpge : UInt8 := 0xa2
/-- Jump by a table of consecutive keys. -/
def tableSwitch : UInt8 := 0xaa
/-- Jump by a table of sorted keys. -/
def lookupSwitch : UInt8 := 0xab
/-- Return an integer. -/
def ireturn : UInt8 := 0xac
/-- Return a long. -/
def lreturn : UInt8 := 0xad
/-- Return a float. -/
def freturn : UInt8 := 0xae
/-- Return a double. -/
def dreturn : UInt8 := 0xaf
/-- Return a reference. -/
def areturn : UInt8 := 0xb0
/-- Return nothing. -/
def returnVoid : UInt8 := 0xb1
/-- Read a static field. -/
def getStatic : UInt8 := 0xb2
/-- Write a static field. -/
def putStatic : UInt8 := 0xb3
/-- Read a field. -/
def getField : UInt8 := 0xb4
/-- Write a field. -/
def putField : UInt8 := 0xb5
/-- Call a method of an object. -/
def invokeVirtual : UInt8 := 0xb6
/-- Call a constructor, a private method or a method of the superclass. -/
def invokeSpecial : UInt8 := 0xb7
/-- Call a static method. -/
def invokeStatic : UInt8 := 0xb8
/-- Create an object. -/
def new : UInt8 := 0xbb
/-- Widen the instruction behind. -/
def wide : UInt8 := 0xc4
/-- Branch if a reference is not null. -/
def ifNonNull : UInt8 := 0xc7

end Opcode

namespace Instruction

/-! ### Lengths -/

/-- The length of an instruction whose length is fixed by its `opcode` (JVMS 6.5). -/
def fixedLength? (opcode : UInt8) : Option Nat :=
  let o := opcode.toNat
  if o ≤ 0x0f then some 1
  else if o = 0x10 then some 2
  else if o = 0x11 then some 3
  else if o = 0x12 then some 2
  else if o ≤ 0x14 then some 3
  else if o ≤ 0x19 then some 2
  else if o ≤ 0x35 then some 1
  else if o ≤ 0x3a then some 2
  else if o ≤ 0x83 then some 1
  else if o = 0x84 then some 3
  else if o ≤ 0x98 then some 1
  else if o ≤ 0xa8 then some 3
  else if o = 0xa9 then some 2
  else if o ≤ 0xab then none
  else if o ≤ 0xb1 then some 1
  else if o ≤ 0xb8 then some 3
  else if o ≤ 0xba then some 5
  else if o = 0xbb then some 3
  else if o = 0xbc then some 2
  else if o = 0xbd then some 3
  else if o ≤ 0xbf then some 1
  else if o ≤ 0xc1 then some 3
  else if o ≤ 0xc3 then some 1
  else if o = 0xc4 then none
  else if o = 0xc5 then some 4
  else if o ≤ 0xc7 then some 3
  else if o ≤ 0xc9 then some 5
  else none

/-- The bytes between the opcode of a switch at `offset` and its tables. -/
def padding (offset : Nat) : Nat := (4 - (offset + 1) % 4) % 4

/-- The signed word that starts at `place` in the `window`. -/
def wordAt (window : Bytes) (place : Nat) : Except Malformation Int :=
  match (window.drop place).take 4 with
  | [a, b, c, d] => .ok (Int.bmod (BigEndian.decode [a, b, c, d]) (2 ^ 32))
  | _ => .error .truncated

/-- The length that the instruction in front of `window` claims to have, in a body in which it
starts at `offset`. -/
def claimedLength (offset : Nat) : (window : Bytes) → Except Malformation Nat
  | [] => .error (.offsetPastEnd offset)
  | opcode :: rest =>
    match fixedLength? opcode with
    | some n => .ok n
    | none =>
      let pad := padding offset
      if opcode = Opcode.tableSwitch then do
        let low ← wordAt rest (pad + 4)
        let high ← wordAt rest (pad + 8)
        if high < low then throw (.switchBoundsReversed offset)
        return 1 + pad + 12 + (high - low + 1).toNat * 4
      else if opcode = Opcode.lookupSwitch then do
        let pairs ← wordAt rest (pad + 4)
        if pairs < 0 then throw (.negativePairCount offset)
        return 1 + pad + 8 + pairs.toNat * 8
      else if opcode = Opcode.wide then
        match rest with
        | [] => .error (.truncatedWide offset)
        | widened :: _ => .ok (if widened = Opcode.iinc then 6 else 4)
      else .error (.reservedOpcode opcode offset)

/-- The length of the instruction in front of `window`, all of which has to be there, in a body in
which it starts at `offset`. -/
def length (offset : Nat) (window : Bytes) : Except Malformation Nat := do
  let n ← claimedLength offset window
  if (window.drop (n - 1)).isEmpty then throw (.instructionPastEnd offset)
  return n

/-- The length of the instruction at `offset` in the body `code`. -/
def lengthAt (code : Bytes) (offset : Nat) : Except Malformation Nat :=
  length offset (code.drop offset)

/-! ### Walking a body -/

/-- An instruction with its opcode and the half word behind it. -/
structure Site where
  /-- Where it starts. -/
  offset : Nat
  /-- The opcode. -/
  opcode : UInt8
  /-- The half word behind the opcode. -/
  operand : UInt16
  deriving DecidableEq, Repr

/-- The offsets at which instructions start, `skip` bytes of the previous instruction being left
before the next. -/
def offsetsFrom : (skip offset : Nat) → Bytes → Except Malformation (List Nat)
  | _, _, [] => .ok []
  | 0, offset, b :: rest => do
    let n ← length offset (b :: rest)
    return offset :: (← offsetsFrom (n - 1) (offset + 1) rest)
  | skip + 1, offset, _ :: rest => offsetsFrom skip (offset + 1) rest

/-- The offsets at which the instructions of the body `code` start. -/
def offsets (code : Bytes) : Except Malformation (List Nat) := offsetsFrom 0 0 code

/-- Whether `opcode` accesses a field or calls a method of a class. -/
def isMemberOpcode (opcode : UInt8) : Bool :=
  Opcode.getStatic ≤ opcode && opcode ≤ Opcode.invokeStatic

/-- The instruction in front of `window`, if it accesses a field or calls a method of a class.  It
starts at `offset` in the body. -/
def memberSite? (offset : Nat) : (window : Bytes) → Option Site
  | opcode :: high :: low :: _ =>
    if isMemberOpcode opcode then
      some { offset, opcode, operand := UInt16.ofNat (BigEndian.decode [high, low]) }
    else none
  | _ => none

/-- The member instructions of a body from `offset` on; see `offsetsFrom` for `skip`. -/
def memberSitesFrom : (skip offset : Nat) → Bytes → Except Malformation (List Site)
  | _, _, [] => .ok []
  | 0, offset, b :: rest => do
    let n ← length offset (b :: rest)
    let later ← memberSitesFrom (n - 1) (offset + 1) rest
    return (memberSite? offset (b :: rest)).toList ++ later
  | skip + 1, offset, _ :: rest => memberSitesFrom skip (offset + 1) rest

/-- The instructions of the body `code` that access a field or call a method of a class. -/
def memberSites (code : Bytes) : Except Malformation (List Site) := memberSitesFrom 0 0 code

/-- A body from `offset` on with the instructions of `sites`, which are sorted by offset, put in
place of what stands there. -/
def replaceFrom : (offset : Nat) → (sites : List Site) → Bytes → Bytes
  | _, _, [] => []
  | _, [], code => code
  | offset, s :: sites, b :: rest =>
    if offset < s.offset then b :: replaceFrom (offset + 1) (s :: sites) rest
    else
      match rest with
      | _ :: _ :: rest' => s.opcode :: (bytes16 s.operand ++ replaceFrom (offset + 3) sites rest')
      | short => b :: short

/-- The body `code` with the instructions of `sites`, which are sorted by offset, put in place of
what stands there. -/
def replace (sites : List Site) (code : Bytes) : Bytes := replaceFrom 0 sites code

end Instruction

end ClassWeave
