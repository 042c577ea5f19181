import ClassWeave.Bytes.Reader

/-!
# A cursor over a buffer

A cursor keeps the whole buffer and a position in it, and is moved by steps: reads of numbers and
bytes, skips, counted tables and blocks that are undone when they fail.

* `Scalar` : the kinds of numbers a step can read, with their widths and their meaning as integers.
* `Overflow` : what becomes of a sum of a position and a count that does not fit into 64 bits.
* `Outcome` : a value or a failure, with the cursor after it, or the end of the program.
* `Cursor.number`, `Cursor.advance`, `Cursor.bytes` : reading a number, skipping, reading bytes;
  `read_be`, `advance_by` and `read_bytes`.
* `Step` : the tree of what to read, in which `Step.table` is a call of `read_table` and
  `Step.block` one of `transactional`; `Step.run` carries it out.

A read or skip that fails leaves the position where it was, a table stops at its first failing
item, and `Step.block` puts the position back to where the block began.  `Cursor.number` checks
that its sum fits; `Cursor.advance`, and with it `Cursor.bytes`, does not.
-/

namespace ClassWeave

/-- The kinds of fixed-width numbers. -/
inductive Scalar where
  | u8 | i8 | u16 | i16 | u32 | i32 | u64 | i64 | f32 | f64
  deriving DecidableEq, Repr

namespace Scalar

/-- The number of bytes a number of the kind takes. -/
def width : Scalar → Nat
  | u8 | i8 => 1
  | u16 | i16 => 2
  | u32 | i32 | f32 => 4
  | u64 | i64 | f64 => 8

/-- Kinds whose top bit counts negatively. -/
def isSigned : Scalar → Bool
  | i8 | i16 | i32 | i64 => true
  | _ => false

/-- Kinds of floating point numbers, whose value here is their bits. -/
def isFloat : Scalar → Bool
  | f32 | f64 => true
  | _ => false

/-- The integer that `bits` of the kind `s` stand for; of a floating point number, the bits. -/
def ofBits (s : Scalar) (bits : Nat) : Int :=
  if s.isSigned then Int.bmod bits (256 ^ s.width) else bits

/-- The bytes of the integer `value` as a number of the kind `s`, in two's complement. -/
def encode (s : Scalar) (value : Int) : Bytes :=
  BigEndian.encode s.width (value % (256 ^ s.width : Nat)).toNat

end Scalar

/-- What becomes of a sum that does not fit into 64 bits and is not checked: that is up to how the
program was built. -/
inductive Overflow where
  /-- The program stops. -/
  | stops
  /-- The sum is taken modulo `2 ^ 64`. -/
  | wraps
  deriving DecidableEq, Repr

/-- The sum of `position` and `count` as `o` has it; `none` when the program stops. -/
def Overflow.add (o : Overflow) (position : Nat) (count : UInt64) : Option Nat :=
  let sum := position + count.toNat
  if sum < 2 ^ 64 then some sum
  else
    match o with
    | .stops => none
    | .wraps => some (sum % 2 ^ 64)

/-- A buffer and a position in it. -/
structure Cursor where
  /-- The whole buffer. -/
  data : Array UInt8
  /-- Its length is a number of 64 bits. -/
  size_lt : data.size < 2 ^ 64
  /-- How many bytes lie before the cursor. -/
  position : Nat := 0
  deriving DecidableEq, Repr

/-- What comes of an operation on a cursor. -/
inductive Outcome (α : Type) where
  /-- A value, and the cursor after it. -/
  | ok (value : α) (next : Cursor)
  /-- A failure, and the cursor after it. -/
  | error (cause : Malformation) (next : Cursor)
  /-- The end of the program: a sum did not fit, or a range ended before it began. -/
  | stopped
  deriving Repr

namespace Outcome

variable {α β : Type}

/-- Goes on with `f` from the value and the cursor of `r`, if `r` has a value. -/
def bind (r : Outcome α) (f : α → Cursor → Outcome β) : Outcome β :=
  match r with
  | .ok v c => f v c
  | .error cause c => .error cause c
  | .stopped => .stopped

/-- Puts `f v` for the value `v`, if `r` has one. -/
def map (f : α → β) (r : Outcome α) : Outcome β :=
  r.bind fun v c => .ok (f v) c

/-- The cursor after `r`, unless the program stopped. -/
def cursor? : Outcome α → Option Cursor
  | .ok _ c => some c
  | .error _ c => some c
  | .stopped => none

end Outcome

/-- What to do with a cursor: a tree of reads and skips, tables and blocks. -/
inductive Step where
  /-- Read a number of the kind `kind`. -/
  | scalar (kind : Scalar)
  /-- Read `count` bytes. -/
  | bytes (count : UInt64)
  /-- Skip `count` bytes. -/
  | advance (count : UInt64)
  /-- Read a half word and carry out `item` as often as it says. -/
  | table (item : Step)
  /-- Carry out `steps` in a row, going back to the start of the block when one fails. -/
  | block (steps : List Step)
  /-- Look at the cursor without moving it. -/
  | look
  deriving Repr

/-- What a step yields. -/
inductive StepValue where
  /-- A number, by its kind and its integer value. -/
  | scalar (kind : Scalar) (value : Int)
  /-- Bytes that were read. -/
  | bytes (bs : Bytes)
  /-- Nothing: bytes were skipped. -/
  | skipped
  /-- The values of the items of a table or block. -/
  | list (values : List StepValue)
  /-- The position and the length of the buffer. -/
  | seen (position length : Nat)
  deriving Repr

namespace Cursor

/-- A cursor at the start of `bs`. -/
def ofBytes (bs : Bytes) (h : bs.length < 2 ^ 64) : Cursor := { data := bs.toArray, size_lt := h }

/-- The bytes of the buffer from the position of `c` to that of `c'`. -/
def between (c c' : Cursor) : Bytes := (c.data.extract c.position c'.position).toList

/-- Reads the big-endian number of the next `width` bytes.  The sum is checked: a cursor with fewer
bytes left, or one so far on that the sum does not fit, stays where it is. -/
def number (c : Cursor) (width : Nat) : Outcome Nat :=
  if c.position + width < 2 ^ 64 ∧ c.position + width ≤ c.data.size then
    let c' := { c with position := c.position + width }
    .ok (BigEndian.decode (c.between c')) c'
  else .error .truncated c

/-- Moves the cursor over `count` bytes; it stays where it is if the sum of its position and
`count`, as `o` has it, is behind the end of the buffer. -/
def advance (o : Overflow) (c : Cursor) (count : UInt64) : Outcome Unit :=
  match o.add c.position count with
  | none => .stopped
  | some next =>
    if next ≤ c.data.size then .ok () { c with position := next } else .error .truncated c

/-- Moves the cursor over `count` bytes and yields the bytes from where it was to where it is.
There is no such range, and the program stops, when it has come to stand before where it was. -/
def bytes (o : Overflow) (c : Cursor) (count : UInt64) : Outcome Bytes :=
  (c.advance o count).bind fun _ c' =>
    if c.position ≤ c'.position then .ok (c.between c') c' else .stopped

end Cursor

/-- Carries out `step` as often as the number tells, or until it fails. -/
def Step.repeated {α : Type} (step : Cursor → Outcome α) : Nat → Cursor → Outcome (List α)
  | 0, c => .ok [] c
  | n + 1, c => (step c).bind fun v c' => (Step.repeated step n c').map (v :: ·)

mutual

/-- Carries out a step at a cursor, where sums that do not fit are up to `o`: its value or the first
failure, and where the cursor stands after it. -/
def Step.run (o : Overflow) : Step → Cursor → Outcome StepValue
  | .scalar kind, c => (c.number kind.width).map fun bits => .scalar kind (kind.ofBits bits)
  | .bytes count, c => (c.bytes o count).map .bytes
  | .advance count, c => (c.advance o count).map fun _ => .skipped
  | .table item, c =>
    (c.number 2).bind fun count c' => (Step.repeated (Step.run o item) count c').map .list
  | .block steps, c =>
    match Step.runAll o steps c with
    | .ok vs c' => .ok (.list vs) c'
    | .error cause _ => .error cause c
    | .stopped => .stopped
  | .look, c => .ok (.seen c.position c.data.size) c

/-- Carries out steps in a row, or until one fails. -/
def Step.runAll (o : Overflow) : List Step → Cursor → Outcome (List StepValue)
  | [], c => .ok [] c
  | s :: steps, c => (Step.run o s c).bind fun v c' => (Step.runAll o steps c').map (v :: ·)

end

end ClassWeave
