/-!
# Bytes and big-endian numbers

Every number of a class file is stored with its most significant byte first.  The width of a
number is always known from where it stands, so a number is written by `BigEndian.encode` into as
many bytes as asked for (`write_be`) and read back by `BigEndian.decode` from as many bytes as there
are (`read_be`).

* `BigEndian.decode_encode` : reading back what was written gives the number, modulo the width.
* `BigEndian.encode_decode` : writing what was read gives the same bytes.
* `Bytes.readAt?`, `Bytes.writeAt?` : reading and overwriting in the middle of a run of bytes,
  refused when the number would stick out of the end; `read_be_at` and `write_be_at`.
-/

namespace ClassWeave

-- Powers of numbers are those of the core library, whatever algebra is imported beside it.
attribute [instance (high)] instPowNat
attribute [default_instance high + 1] instPowNat

/-- A finite run of bytes. -/
abbrev Bytes := List UInt8

namespace BigEndian

/-- The `width` low bytes of `n`, most significant first. -/
def encode : (width : Nat) → (n : Nat) → Bytes
  | 0, _ => []
  | width + 1, n => encode width (n / 256) ++ [UInt8.ofNat n]

/-- The number whose bytes, most significant first, are `bs`. -/
def decode (bs : Bytes) : Nat :=
  bs.foldl (fun n b => n * 256 + b.toNat) 0

@[simp] theorem length_encode (width n : Nat) : (encode width n).length = width := by
  induction width generalizing n with
  | zero => rfl
  | succ width ih => simp [encode, ih]

@[simp] theorem decode_nil : decode [] = 0 := rfl

@[simp] theorem decode_append_singleton (bs : Bytes) (b : UInt8) :
    decode (bs ++ [b]) = decode bs * 256 + b.toNat := by
  simp [decode]

/-- **Reading undoes writing**, up to the width. -/
theorem decode_encode (width n : Nat) : decode (encode width n) = n % 256 ^ width := by
  induction width generalizing n with
  | zero => simp [encode, Nat.mod_one]
  | succ width ih =>
    rw [encode, decode_append_singleton, ih, Nat.pow_succ, Nat.mul_comm (256 ^ width) 256,
      Nat.mod_mul, UInt8.toNat_ofNat']
    omega

/-- **Writing undoes reading.** -/
theorem encode_decode (bs : Bytes) : encode bs.length (decode bs) = bs := by
  suffices h : ∀ rs : Bytes, encode rs.reverse.length (decode rs.reverse) = rs.reverse by
    simpa using h bs.reverse
  intro rs
  induction rs with
  | nil => rfl
  | cons b rs ih =>
    have hb : b.toNat < 256 := b.toNat_lt
    have hdiv : (decode rs.reverse * 256 + b.toNat) / 256 = decode rs.reverse := by omega
    have hmod : UInt8.ofNat (decode rs.reverse * 256 + b.toNat) = b := by
      apply UInt8.toNat_inj.1
      rw [UInt8.toNat_ofNat']
      omega
    simp only [List.reverse_cons, List.length_append, List.length_singleton, encode,
      decode_append_singleton, hdiv, hmod, ih]

end BigEndian

/-- The two bytes of a half word. -/
def bytes16 (n : UInt16) : Bytes := BigEndian.encode 2 n.toNat

/-- The four bytes of a word. -/
def bytes32 (n : UInt32) : Bytes := BigEndian.encode 4 n.toNat

/-- The eight bytes of a double word. -/
def bytes64 (n : UInt64) : Bytes := BigEndian.encode 8 n.toNat

/-- A count as the half word in front of a table, modulo `2 ^ 16`. -/
def bytesOfCount (n : Nat) : Bytes := BigEndian.encode 2 n

namespace Bytes

/-- The `width` bytes from `offset` on as a number; nothing when they are not all there. -/
def readAt? (data : Bytes) (offset width : Nat) : Option Nat :=
  if offset + width ≤ data.length then
    some (BigEndian.decode ((data.drop offset).take width))
  else none

/-- `data` with the bytes from `offset` on overwritten by `new`; nothing when `new` would stick
out of the end. -/
def writeAt? (data : Bytes) (offset : Nat) (new : Bytes) : Option Bytes :=
  if offset + new.length ≤ data.length then
    some (data.take offset ++ new ++ data.drop (offset + new.length))
  else none

end Bytes

end ClassWeave
