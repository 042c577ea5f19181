import ClassWeave.Malformation

/-!
# Readers

A reader takes what it wants from the front of the remaining bytes and leaves the rest, or fails.
It never asks for more than `2 ^ 32` bytes at a time, so it does what a cursor (`Bytes/Cursor`) does
with the same bytes, and keeps what follows the position of the cursor instead of the position.

* `Reader.bytes`, `Reader.number` : a given number of bytes, as they are or as a big-endian number;
  `read_bytes` and `read_be`.
* `Reader.table` : a half word `n`, then `n` items; `read_table`.
* `Reader.whole` : a reader that has to use up its bytes, as `has_more_data` tells.
-/

namespace ClassWeave

/-- A reader of `α`s: the value and the bytes after it, or the reason why there is none. -/
abbrev Reader := StateT Bytes (Except Malformation)

namespace Reader

variable {α : Type}

/-- Exactly `n` bytes. -/
def bytes (n : Nat) : Reader Bytes := fun rest =>
  let taken := rest.take n
  if taken.length = n then .ok (taken, rest.drop n) else .error .truncated

/-- A big-endian number of `width` bytes. -/
def number (width : Nat) : Reader Nat := do
  return BigEndian.decode (← bytes width)

/-- A byte. -/
def u8 : Reader UInt8 := UInt8.ofNat <$> number 1

/-- A half word. -/
def u16 : Reader UInt16 := UInt16.ofNat <$> number 2

/-- A word. -/
def u32 : Reader UInt32 := UInt32.ofNat <$> number 4

/-- A double word. -/
def u64 : Reader UInt64 := UInt64.ofNat <$> number 8

/-- As many values in a row as the number tells, each read by `item`. -/
def times (item : Reader α) : Nat → Reader (List α)
  | 0 => pure []
  | n + 1 => do
    let x ← item
    let xs ← times item n
    return x :: xs

/-- A table: the number of its items as a half word, then the items, each read by `item`. -/
def table (item : Reader α) : Reader (List α) := do
  times item (← u16).toNat

/-- Reads all of `data` by `item`; what is left over is passed to `trailing`, which tells the
failure. -/
def whole (item : Reader α) (trailing : Bytes → Malformation) (data : Bytes) :
    Except Malformation α :=
  match item data with
  | .ok (a, []) => .ok a
  | .ok (_, b :: rest) => .error (trailing (b :: rest))
  | .error cause => .error cause

theorem bytes_append (bs rest : Bytes) : bytes bs.length (bs ++ rest) = .ok (bs, rest) := by
  simp [bytes]

theorem number_append (width n : Nat) (rest : Bytes) :
    number width (BigEndian.encode width n ++ rest) = .ok (n % 256 ^ width, rest) := by
  have h := bytes_append (BigEndian.encode width n) rest
  rw [BigEndian.length_encode] at h
  simp only [number, bind, StateT.bind, Except.bind, h, BigEndian.decode_encode]
  rfl

end Reader

end ClassWeave
