import ClassWeave.Text.Hex

/-!
# SHA-1

The digest of a message is five words, stirred by every block of sixteen words in turn.

* `Sha1.pad` : a message filled up to whole blocks, with its length in bits at the end.
* `Sha1.compress` : stirring one block into the state, in eighty rounds.
* `Sha1.digest`, `Sha1.hexDigest` : the digest as bytes and as lowercase digits.
-/

namespace ClassWeave

namespace Sha1

/-- The five words that a message is condensed to. -/
structure State where
  /-- The first word. -/
  a : UInt32
  /-- The second word. -/
  b : UInt32
  /-- The third word. -/
  c : UInt32
  /-- The fourth word. -/
  d : UInt32
  /-- The fifth word. -/
  e : UInt32
  deriving DecidableEq, Repr

/-- The words before any block. -/
def start : State := ⟨0x67452301, 0xEFCDAB89, 0x98BADCFE, 0x10325476, 0xC3D2E1F0⟩

/-- The word `w` with its bits turned round to the left by `n`. -/
def rotate (w : UInt32) (n : UInt32) : UInt32 := (w <<< n) ||| (w >>> (32 - n))

/-- How the given round mixes the words `b`, `c` and `d`. -/
def mix (round : Nat) (b c d : UInt32) : UInt32 :=
  if round < 20 then (b &&& c) ||| (~~~b &&& d)
  else if round < 40 then b ^^^ c ^^^ d
  else if round < 60 then (b &&& c) ||| (b &&& d) ||| (c &&& d)
  else b ^^^ c ^^^ d

/-- The constant of the given round. -/
def constant (round : Nat) : UInt32 :=
  if round < 20 then 0x5A827999
  else if round < 40 then 0x6ED9EBA1
  else if round < 60 then 0x8F1BBCDC
  else 0xCA62C1D6

/-- The state after round `n`, which takes in the word `w`. -/
def round (s : State) (w : UInt32) (n : Nat) : State :=
  ⟨rotate s.a 5 + mix n s.b s.c s.d + s.e + constant n + w, s.a, rotate s.b 30, s.c, s.d⟩

/-- The next `count` words after the sixteen of `window`, each from four before it. -/
def extend : (count : Nat) → (window : List UInt32) → List UInt32
  | 0, _ => []
  | count + 1, window =>
    let w := rotate (window.getD 13 0 ^^^ window.getD 8 0 ^^^ window.getD 2 0 ^^^ window.getD 0 0) 1
    w :: extend count (window.drop 1 ++ [w])

/-- Stirs a `block` of sixteen words into the state `s`. -/
def compress (s : State) (block : List UInt32) : State :=
  let words := block ++ extend 64 block
  let t := words.zipIdx.foldl (fun t (w, n) => round t w n) s
  ⟨s.a + t.a, s.b + t.b, s.c + t.c, s.d + t.d, s.e + t.e⟩

/-- The `message` with a set bit, zeros and its length in bits after it, so that it fills whole
blocks of 64 bytes. -/
def pad (message : Bytes) : Bytes :=
  let length := message.length
  message ++ (0x80 :: (List.replicate ((119 - length % 64) % 64) 0 ++
    BigEndian.encode 8 (8 * length)))

/-- The words that bytes make up, four by four. -/
def words : Bytes → List UInt32
  | a :: b :: c :: d :: rest => UInt32.ofNat (BigEndian.decode [a, b, c, d]) :: words rest
  | _ => []

/-- Takes in the word `w`: it waits until its block is full. -/
def absorb (s : State × List UInt32) (w : UInt32) : State × List UInt32 :=
  let waiting := s.2 ++ [w]
  if waiting.length = 16 then (compress s.1 waiting, []) else (s.1, waiting)

/-- The twenty bytes of the digest of `message`. -/
def digest (message : Bytes) : Bytes :=
  let s := ((words (pad message)).foldl absorb (start, [])).1
  [s.a, s.b, s.c, s.d, s.e].flatMap bytes32

/-- The digest of `message` in forty lowercase digits. -/
def hexDigest (message : Bytes) : String := Hex.ofBytes (digest message)

end Sha1

end ClassWeave
