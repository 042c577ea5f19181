import ClassWeave.Malformation

/-!
# Modified UTF-8

The texts of a class file (JVMS 4.4.7) are sequences of UTF-16 code units, each stored in one to
three bytes: the zero unit takes two bytes, so that no text holds a zero byte, and a character above
`U+FFFF` is stored as its two surrogates, three bytes each.

* `ModifiedUtf8.encode` : a text as bytes, `encode_modified_utf8`.
* `ModifiedUtf8.decode` : bytes as a text, `decode_modified_utf8`.  Continuation bytes contribute
  their six low bits, whatever their two high bits are; a unit may be written with more bytes than
  it needs.
* `CodeUnits.ofChar`, `CodeUnits.toChars` : characters and UTF-16 code units.
-/

namespace ClassWeave

/-! ### Characters and UTF-16 code units -/

namespace CodeUnits

/-- The code units of the character `c`: itself up to `U+FFFF`, else a high and a low surrogate. -/
def ofChar (c : Char) : List UInt16 :=
  if c.toNat < 0x10000 then [UInt16.ofNat c.toNat]
  else
    [UInt16.ofNat (0xD800 + (c.toNat - 0x10000) / 0x400),
      UInt16.ofNat (0xDC00 + (c.toNat - 0x10000) % 0x400)]

/-- Whether `u` is the first half of a surrogate pair. -/
def isHigh (u : UInt16) : Bool := 0xD800 ≤ u && u < 0xDC00

/-- Whether `u` is the second half of a surrogate pair. -/
def isLow (u : UInt16) : Bool := 0xDC00 ≤ u && u < 0xE000

/-- The character of the surrogate pair `high`, `low`. -/
def ofPair (high low : UInt16) : Char :=
  Char.ofNat (0x10000 + (high.toNat - 0xD800) * 0x400 + (low.toNat - 0xDC00))

/-- The characters of a sequence of code units; nothing when a surrogate has no partner. -/
def toChars : List UInt16 → Option (List Char)
  | [] => some []
  | u :: rest =>
    if isHigh u then
      match rest with
      | v :: rest' => if isLow v then (ofPair u v :: ·) <$> toChars rest' else none
      | [] => none
    else if isLow u then none
    else (Char.ofNat u.toNat :: ·) <$> toChars rest

end CodeUnits

/-! ### Code units and bytes -/

namespace ModifiedUtf8

/-- The bytes of the code unit `u`: one for `U+0001` to `U+007F`, two for zero and up to `U+07FF`,
otherwise three. -/
def encodeUnit (u : UInt16) : Bytes :=
  let n := u.toNat
  if 0 < n ∧ n < 0x80 then [UInt8.ofNat n]
  else if n < 0x800 then [UInt8.ofNat (0xC0 + n / 64), UInt8.ofNat (0x80 + n % 64)]
  else
    [UInt8.ofNat (0xE0 + n / 4096), UInt8.ofNat (0x80 + n / 64 % 64), UInt8.ofNat (0x80 + n % 64)]

/-- The bytes of the `text`. -/
def encode (text : String) : Bytes :=
  (text.toList.flatMap CodeUnits.ofChar).flatMap encodeUnit

/-- The code units of a run of bytes.  The lead byte tells how many bytes a unit takes. -/
def decodeUnits : Bytes → Except Malformation (List UInt16)
  | [] => .ok []
  | a :: rest =>
    if a < 0x80 then (a.toUInt16 :: ·) <$> decodeUnits rest
    else if 0xC0 ≤ a ∧ a < 0xE0 then
      match rest with
      | b :: rest' =>
        (UInt16.ofNat (a.toNat % 32 * 64 + b.toNat % 64) :: ·) <$> decodeUnits rest'
      | [] => .error .truncatedText
    else if 0xE0 ≤ a ∧ a < 0xF0 then
      match rest with
      | b :: c :: rest' =>
        (UInt16.ofNat (a.toNat % 16 * 4096 + b.toNat % 64 * 64 + c.toNat % 64) :: ·) <$>
          decodeUnits rest'
      | _short => .error .truncatedText
    else .error (.badLeadByte a)

/-- The text that `bs` stands for. -/
def decode (bs : Bytes) : Except Malformation String := do
  match CodeUnits.toChars (← decodeUnits bs) with
  | some chars => .ok (String.ofList chars)
  | none => .error .unpairedSurrogate

end ModifiedUtf8

end ClassWeave
