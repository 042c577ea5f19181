import ClassWeave.Proofs.Machine.Heap
import ClassWeave.Proofs.Verifier.Signature

/-!
# Buffers of bytes and the greater of two integers

What the methods of the library that generated code calls do to the operand stack and the heap, as
their documentation tells it.

* `Cell` : the formats in which a buffer keeps numbers, each most significant byte first.
* `Native`, `Native.run?` : the methods, and what a call does if it completes.
* `Cell.decode_zero`, `Native.find?_ref` : a fresh buffer holds zeros; every method is found.
* `Native.signature?_ref` : the types of the values that the methods take and give.
-/

namespace ClassWeave

/-! ### Formats -/

/-- A format in which a buffer keeps numbers. -/
inductive Cell where
  | byte
  | char
  | short
  | int
  | float
  | long
  | double
  deriving DecidableEq, Repr

namespace Cell

/-- All formats. -/
def all : List Cell := [byte, char, short, int, float, long, double]

/-- What the names of the two methods of a format end in. -/
def suffix : Cell → String
  | byte => ""
  | char => "Char"
  | short => "Short"
  | int => "Int"
  | float => "Float"
  | long => "Long"
  | double => "Double"

/-- The descriptor of the numbers of a format. -/
def letter : Cell → String
  | byte => "B"
  | char => "C"
  | short => "S"
  | int => "I"
  | float => "F"
  | long => "J"
  | double => "D"

/-- The number of bytes that a number takes. -/
def width : Cell → Nat
  | byte => 1
  | char | short => 2
  | int | float => 4
  | long | double => 8

/-- The type of the values of a format. -/
def type : Cell → ValueType
  | byte | char | short | int => .int
  | float => .float
  | long => .long
  | double => .double

/-- The number that a value is stored as; the narrow formats keep the low bytes of an integer. -/
def encode? : Cell → Value → Option Nat
  | byte, .int v => some (v.toInt % 2 ^ 8).toNat
  | char, .int v | short, .int v => some (v.toInt % 2 ^ 16).toNat
  | int, .int v => some (v.toInt % 2 ^ 32).toNat
  | float, .float bits => some bits.toNat
  | long, .long v => some (v.toInt % 2 ^ 64).toNat
  | double, .double bits => some bits.toNat
  | _, _ => none

/-- The value that is stored as a number; of the narrow formats, only `char` has no sign. -/
def decode : Cell → Nat → Value
  | byte, n => .int (.ofInt (Int.bmod n (2 ^ 8)))
  | char, n => .int (.ofNat n)
  | short, n => .int (.ofInt (Int.bmod n (2 ^ 16)))
  | int, n => .int (.ofNat n)
  | float, n => .float (.ofNat n)
  | long, n => .long (.ofNat n)
  | double, n => .double (.ofNat n)

theorem decode_zero (c : Cell) : c.decode 0 = c.type.zero := by
  cases c <;> decide

end Cell

/-- The format in which values of a kind are stored; of an object, the number of its slot is. -/
def ValueKind.cell : ValueKind → Cell
  | boolean | byte => .byte
  | char => .char
  | short => .short
  | int | object _ | array _ => .int
  | float => .float
  | long => .long
  | double => .double

/-! ### Calls -/

/-- A method of the library. -/
inductive Native where
  /-- Allocate a buffer. -/
  | allocate
  /-- Tell how many bytes a buffer has. -/
  | size
  /-- Move a buffer to its beginning. -/
  | rewind
  /-- Copy one buffer into another. -/
  | copy
  /-- Pick the greater of two integers. -/
  | max
  /-- Read a number at an address. -/
  | read (c : Cell)
  /-- Write a number at an address. -/
  | write (c : Cell)
  deriving DecidableEq, Repr

namespace Native

/-- All methods. -/
def all : List Native :=
  [allocate, size, rewind, copy, max] ++ Cell.all.map read ++ Cell.all.map write

/-- How a method is called. -/
def kind : Native → CallKind
  | allocate | max => .static
  | _ => .virtual

/-- What calls a method. -/
def ref : Native → MemberRef
  | allocate =>
    { owner := "java/nio/ByteBuffer", name := "allocateDirect",
      descriptor := "(I)Ljava/nio/ByteBuffer;" }
  | size => { owner := "java/nio/Buffer", name := "capacity", descriptor := "()I" }
  | rewind => { owner := "java/nio/Buffer", name := "rewind", descriptor := "()Ljava/nio/Buffer;" }
  | copy =>
    { owner := "java/nio/ByteBuffer", name := "put",
      descriptor := "(Ljava/nio/ByteBuffer;)Ljava/nio/ByteBuffer;" }
  | max => { owner := "java/lang/Math", name := "max", descriptor := "(II)I" }
  | read c =>
    { owner := "java/nio/ByteBuffer", name := "get" ++ c.suffix, descriptor := "(I)" ++ c.letter }
  | write c =>
    { owner := "java/nio/ByteBuffer", name := "put" ++ c.suffix,
      descriptor := "(I" ++ c.letter ++ ")Ljava/nio/ByteBuffer;" }

/-- The method that a call leads to. -/
def find? (kind : CallKind) (m : MemberRef) : Option Native :=
  all.find? fun n => n.kind == kind && n.ref == m

/-- Every method is found by what calls it. -/
theorem find?_ref (n : Native) : find? n.kind n.ref = some n := by
  have hall : ∀ n ∈ all, find? n.kind n.ref = some n := by decide +kernel
  have hcell (c : Cell) : c ∈ Cell.all := by cases c <;> decide
  refine hall n ?_
  cases n with
  | read c => simp [all, hcell c]
  | write c => simp [all, hcell c]
  | _ => decide

/-- No method of the library is a constructor. -/
theorem find?_special (m : MemberRef) : find? .special m = none := by
  refine List.find?_eq_none.2 fun n _ => ?_
  cases n <;> simp [kind]

theorem find?_of_name_ne {m : MemberRef} (h : ∀ n ∈ all, n.ref.name ≠ m.name) (kind : CallKind) :
    find? kind m = none := by
  refine List.find?_eq_none.2 fun n hn heq => h n hn ?_
  have href : n.ref = m := by simp_all
  rw [href]

/-- The types of the values that a method takes and gives. -/
def signature : Native → Descriptor.Signature
  | allocate => { parameters := [.int], result? := some .ref }
  | size => { parameters := [], result? := some .int }
  | rewind => { parameters := [], result? := some .ref }
  | copy => { parameters := [.ref], result? := some .ref }
  | max => { parameters := [.int, .int], result? := some .int }
  | read c => { parameters := [.int], result? := some c.type }
  | write c => { parameters := [.int, c.type], result? := some .ref }

/-- The descriptor of a method tells its signature. -/
theorem signature?_ref (n : Native) :
    Descriptor.signature? n.ref.descriptor = some n.signature := by
  cases n with
  | read c | write c => cases c <;> decide
  | _ => decide

/-- The buffer that a reference leads to. -/
def bufferOf? (h : Heap) : Value → Option (Nat × Buffer)
  | .ref (some o) => (o, ·) <$> h.buffer? o
  | _ => none

/-- A new buffer of zeros, unless their number is negative. -/
def allocate? (count : Int32) (h : Heap) : Option (Value × Heap) :=
  if 0 ≤ count.toInt then
    let (o, h') := h.add (.buffer { bytes := .replicate count.toInt.toNat 0, position := 0 })
    some (.ref (some o), h')
  else none

/-- Copies what one buffer holds from its position on into another at its position, and moves both
positions behind it.  A buffer is not copied into itself, nor into one with too little room. -/
def copy? (target source : Nat × Buffer) (h : Heap) : Option Heap :=
  if target.1 = source.1 then none
  else do
    let new := source.2.bytes.drop source.2.position
    let bytes ← target.2.bytes.writeAt? target.2.position new
    let h := h.put target.1 (.buffer { bytes, position := target.2.position + new.length })
    return h.put source.1 (.buffer { source.2 with position := source.2.position + new.length })

/-- The value at an address, unless it sticks out of the buffer. -/
def read? (c : Cell) (b : Buffer) (address : Int32) : Option Value :=
  if 0 ≤ address.toInt then c.decode <$> b.bytes.readAt? address.toInt.toNat c.width else none

/-- The buffer with a value at an address, unless it sticks out of the buffer. -/
def write? (c : Cell) (b : Buffer) (address : Int32) (v : Value) : Option Buffer :=
  if 0 ≤ address.toInt then do
    let n ← c.encode? v
    let bytes ← b.bytes.writeAt? address.toInt.toNat (BigEndian.encode c.width n)
    return { b with bytes }
  else none

/-- What a call does to the operand stack, top first, and to the heap, if it completes. -/
def run? : Native → List Value → Heap → Option (List Value × Heap)
  | allocate, .int count :: rest, h => do
    let (v, h) ← allocate? count h
    return (v :: rest, h)
  | size, source :: rest, h => do
    let (_, b) ← bufferOf? h source
    return (.int (.ofNat b.bytes.length) :: rest, h)
  | rewind, source :: rest, h => do
    let (o, b) ← bufferOf? h source
    return (source :: rest, h.put o (.buffer { b with position := 0 }))
  | copy, source :: target :: rest, h => do
    let h ← copy? (← bufferOf? h target) (← bufferOf? h source) h
    return (target :: rest, h)
  | max, .int b :: .int a :: rest, h => some (.int (if a.toInt ≤ b.toInt then b else a) :: rest, h)
  | read c, .int address :: source :: rest, h => do
    let (_, b) ← bufferOf? h source
    let v ← read? c b address
    return (v :: rest, h)
  | write c, v :: .int address :: target :: rest, h => do
    let (o, b) ← bufferOf? h target
    let b ← write? c b address v
    return (target :: rest, h.put o (.buffer b))
  | _, _, _ => none

/-! ### Calls that complete -/

section

variable {h : Heap} {o o' : Nat} {b b' : Buffer} {rest : List Value}

theorem run?_allocate {count : Nat} (hcount : count < 2 ^ 31) :
    allocate.run? (.int (.ofNat count) :: rest) h = some (.ref (some h.objects.length) :: rest,
      (h.add (.buffer { bytes := .replicate count 0, position := 0 })).2) := by
  have hint : (Int32.ofNat count).toInt = count := Int32.toInt_ofNat_of_lt hcount
  rw [run?, allocate?, hint, if_pos (Int.natCast_nonneg count)]
  rfl

theorem run?_size (hb : h.buffer? o = some b) : size.run? (.ref (some o) :: rest) h =
    some (.int (.ofNat b.bytes.length) :: rest, h) := by
  simp [run?, bufferOf?, hb]

theorem run?_rewind (hb : h.buffer? o = some b) : rewind.run? (.ref (some o) :: rest) h =
    some (.ref (some o) :: rest, h.put o (.buffer { b with position := 0 })) := by
  simp [run?, bufferOf?, hb]

/-- Copying from the beginning of one buffer to the beginning of another. -/
theorem run?_copy {bytes : Bytes} (hne : o' ≠ o) (hb : h.buffer? o = some b)
    (hb' : h.buffer? o' = some b') (hstart : b.position = 0) (hstart' : b'.position = 0)
    (hwrite : b'.bytes.writeAt? 0 b.bytes = some bytes) :
    copy.run? (.ref (some o) :: .ref (some o') :: rest) h = some (.ref (some o') :: rest,
      (h.put o' (.buffer { bytes, position := b.bytes.length })).put o
        (.buffer { bytes := b.bytes, position := b.bytes.length })) := by
  simp [run?, copy?, bufferOf?, hb, hb', hne, hstart, hstart', hwrite]

end

end Native

end ClassWeave
