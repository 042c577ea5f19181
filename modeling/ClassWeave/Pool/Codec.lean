import ClassWeave.Bytes.Reader
import ClassWeave.Pool.Basic
import ClassWeave.Text.ModifiedUtf8

/-!
# The bytes of a constant pool

A pool is stored as the number of its slots and its constants in a row, each behind a tag that
tells its kind (JVMS 4.4).

* `Constant.reader`, `Constant.write` : one constant; `read_entry`, and the body of the loop in
  `write`.
* `ConstantPool.reader`, `ConstantPool.write` : a pool, `read` and `write`.  A wide constant must
  leave room for the slot after it.
-/

namespace ClassWeave

namespace Constant

/-- Reads a constant: its tag, then what the tag announces. -/
def reader : Reader Constant := do
  let tag ← Reader.u8
  match tag.toNat with
  | 1 => do
    let length ← Reader.u16
    let bs ← Reader.bytes length.toNat
    return .utf8 (← ModifiedUtf8.decode bs)
  | 3 => return .integer (← Reader.u32).toInt32
  | 4 => return .float (← Reader.u32)
  | 5 => return .long (← Reader.u64).toInt64
  | 6 => return .double (← Reader.u64)
  | 7 => return .classInfo (← Reader.u16)
  | 8 => return .string (← Reader.u16)
  | 9 => return .fieldRef (← Reader.u16) (← Reader.u16)
  | 10 => return .methodRef (← Reader.u16) (← Reader.u16)
  | 11 => return .interfaceMethodRef (← Reader.u16) (← Reader.u16)
  | 12 => return .nameAndType (← Reader.u16) (← Reader.u16)
  | 15 => return .methodHandle (← Reader.u8) (← Reader.u16)
  | 16 => return .methodType (← Reader.u16)
  | 17 => return .dynamic (← Reader.u16) (← Reader.u16)
  | 18 => return .invokeDynamic (← Reader.u16) (← Reader.u16)
  | 19 => return .moduleInfo (← Reader.u16)
  | 20 => return .packageInfo (← Reader.u16)
  | _ => throw (.unknownConstantTag tag)

/-- The bytes of a constant.  The length in front of a text is taken modulo `2 ^ 16`. -/
def write : Constant → Bytes
  | utf8 text =>
    let bs := ModifiedUtf8.encode text
    1 :: (bytesOfCount bs.length ++ bs)
  | integer value => 3 :: bytes32 value.toUInt32
  | float bits => 4 :: bytes32 bits
  | long value => 5 :: bytes64 value.toUInt64
  | double bits => 6 :: bytes64 bits
  | classInfo name => 7 :: bytes16 name
  | string text => 8 :: bytes16 text
  | fieldRef owner member => 9 :: (bytes16 owner ++ bytes16 member)
  | methodRef owner member => 10 :: (bytes16 owner ++ bytes16 member)
  | interfaceMethodRef owner member => 11 :: (bytes16 owner ++ bytes16 member)
  | nameAndType name descriptor => 12 :: (bytes16 name ++ bytes16 descriptor)
  | methodHandle kind target => 15 :: kind :: bytes16 target
  | methodType descriptor => 16 :: bytes16 descriptor
  | dynamic bootstrap member => 17 :: (bytes16 bootstrap ++ bytes16 member)
  | invokeDynamic bootstrap member => 18 :: (bytes16 bootstrap ++ bytes16 member)
  | moduleInfo name => 19 :: bytes16 name
  | packageInfo name => 20 :: bytes16 name

end Constant

namespace ConstantPool

/-- Reads constants until as many slots are taken as the argument tells. -/
def slotsReader : Nat → Reader (List (Option Constant))
  | 0 => pure []
  | 1 => do
    let c ← Constant.reader
    if c.isWide then throw .wideInLastSlot
    return [some c]
  | n + 2 => do
    let c ← Constant.reader
    if c.isWide then
      return some c :: none :: (← slotsReader n)
    else
      return some c :: (← slotsReader (n + 1))

/-- Reads a pool: the number of its slots, slot 0 included, then its constants. -/
def reader : Reader ConstantPool := do
  match (← Reader.u16).toNat with
  | 0 => throw .noPoolSlots
  | n + 1 => return ⟨(none :: (← slotsReader n)).toArray⟩

/-- The bytes of the pool `p`. -/
def write (p : ConstantPool) : Bytes :=
  bytesOfCount p.size ++ p.slots.toList.reduceOption.flatMap Constant.write

end ConstantPool

end ClassWeave
