import ClassWeave.Bytes.BigEndian

/-!
# Lowercase hexadecimal

* `Hex.ofNat` : a number with at least so many digits, filled up with zeros.
* `Hex.ofBytes` : two digits a byte.
-/

namespace ClassWeave

namespace Hex

/-- `n` in lowercase hexadecimal, filled up with zeros to at least `width` digits. -/
def ofNat (width n : Nat) : String :=
  let digits := Nat.toDigits 16 n
  String.ofList (List.replicate (width - digits.length) '0' ++ digits)

/-- The digit of a number below sixteen. -/
def digit (n : Nat) : Char :=
  Nat.digitChar (n % 16)

/-- Two lowercase digits for every byte. -/
def ofBytes (bs : Bytes) : String :=
  String.ofList (bs.flatMap fun b => [digit (b.toNat / 16), digit b.toNat])

end Hex

end ClassWeave
