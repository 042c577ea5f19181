import ClassWeave.Proofs.Bytes.Reading
import ClassWeave.Proofs.Machine.Instr

/-!
# Frames for the verifier

The `StackMapTable` of a method body tells what the local variables and the operand stack hold where
its branches lead.  The frames come in the order of their offsets, and each is told by how it
differs from the one before it; the first differs from what the method starts with.

* `StackMap.decode` : the frames of a payload.
* `StackMap.decode_same`, `StackMap.decode_same_append` : the frames of the two forms of payloads
  that generated bodies have.
-/

namespace ClassWeave

namespace StackMap

/-- What the local variables and the operand stack hold where an instruction starts.  A value that
takes two places is told once; a place with nothing in it that can be used is `none`. -/
structure Frame where
  /-- Where the instruction starts. -/
  offset : Nat
  /-- The local variables. -/
  locals : List (Option ValueType)
  /-- The operand stack, top last. -/
  stack : List (Option ValueType)
  deriving DecidableEq, Repr

/-- What a single place holds.  Null, an object that is not constructed yet, and an object of a
class are all references; behind the tags of the last two stands a half word. -/
def place : Reader (Option ValueType) := do
  match ← Reader.u8 with
  | 0 => return none
  | 1 => return some .int
  | 2 => return some .float
  | 3 => return some .double
  | 4 => return some .long
  | 5 | 6 => return some .ref
  | 7 | 8 =>
    let _ ← Reader.u16
    return some .ref
  | _ => throw (.described "unknown verification type")

/-- What a frame tells: how far it lies behind the place where it could come first, the local
variables and the operand stack. -/
abbrev Entry := Nat × List (Option ValueType) × List (Option ValueType)

/-- Reads a frame, given the local variables of the one before it. -/
def entry (locals : List (Option ValueType)) : Reader Entry := do
  let tag := (← Reader.u8).toNat
  if tag ≤ 63 then return (tag, locals, [])
  else if tag ≤ 127 then return (tag - 64, locals, [← place])
  else if tag ≤ 246 then throw (.described "reserved frame type")
  else
    let distance := (← Reader.u16).toNat
    if tag = 247 then return (distance, locals, [← place])
    else if tag ≤ 250 then
      if locals.length < 251 - tag then throw (.described "too few local variables")
      else return (distance, locals.take (locals.length - (251 - tag)), [])
    else if tag = 251 then return (distance, locals, [])
    else if tag ≤ 254 then
      return (distance, locals ++ (← Reader.times place (tag - 251)), [])
    else return (distance, ← Reader.table place, ← Reader.table place)

/-- Reads frames in a row, the first of which lies at `next` or behind it. -/
def entries : (count next : Nat) → (locals : List (Option ValueType)) → Reader (List Frame)
  | 0, _, _ => pure []
  | count + 1, next, locals => do
    let (distance, locals, stack) ← entry locals
    let offset := next + distance
    return { offset, locals, stack } :: (← entries count (offset + 1) locals)

/-- The frames of a payload, in a method that starts with the given local variables. -/
def decode (initial : List ValueType) (payload : Bytes) : Except Malformation (List Frame) :=
  Reader.whole (do entries (← Reader.u16).toNat 0 (initial.map some))
    (fun _ => .described "bytes behind the last frame") payload

/-! ### The forms that are written -/

variable {initial : List ValueType} {locals : List (Option ValueType)} {rest : Bytes}

open Reader

theorem entry_same {distance : Nat} (h : distance ≤ 63) :
    entry locals (UInt8.ofNat distance :: rest) = .ok ((distance, locals, []), rest) := by
  refine bind_eq_ok.2 ⟨_, _, u8_eq_ok.2 rfl, ?_⟩
  have htag : (UInt8.ofNat distance).toNat = distance := by
    rw [UInt8.toNat_ofNat']
    omega
  simp only [htag, if_pos h]
  rfl

theorem times_place_int : Reader.times place 1 (1 :: rest) = .ok ([some .int], rest) := by
  refine bind_eq_ok.2 ⟨_, _, bind_eq_ok.2 ⟨_, _, u8_eq_ok.2 rfl, pure_eq_ok.2 ⟨rfl, rfl⟩⟩, ?_⟩
  exact bind_eq_ok.2 ⟨_, _, pure_eq_ok.2 ⟨rfl, rfl⟩, pure_eq_ok.2 ⟨rfl, rfl⟩⟩

theorem entry_append {distance : Nat} (h : distance < 2 ^ 16) :
    entry locals (252 :: (bytesOfCount distance ++ 1 :: rest)) =
      .ok ((distance, locals ++ [some .int], []), rest) := by
  have hcount : bytesOfCount distance = bytes16 (UInt16.ofNat distance) := by
    rw [← bytesOfCount_toNat, UInt16.toNat_ofNat_of_lt' h]
  have htag : (252 : UInt8).toNat = 252 := rfl
  refine bind_eq_ok.2 ⟨_, _, u8_eq_ok.2 rfl, ?_⟩
  simp only [htag, Nat.reduceLeDiff, if_false]
  refine bind_eq_ok.2 ⟨_, _, u16_eq_ok.2 (by rw [hcount]), ?_⟩
  rw [UInt16.toNat_ofNat_of_lt' h]
  exact bind_eq_ok.2 ⟨_, _, times_place_int, pure_eq_ok.2 ⟨rfl, rfl⟩⟩

theorem decode_eq_ok {payload : Bytes} {count : UInt16} {frames : List Frame}
    (h : entries count.toNat 0 (initial.map some) payload = .ok (frames, [])) :
    decode initial (bytes16 count ++ payload) = .ok frames := by
  have hread : (do entries (← Reader.u16).toNat 0 (initial.map some) : Reader (List Frame))
      (bytes16 count ++ payload) = .ok (frames, []) :=
    bind_eq_ok.2 ⟨_, _, u16_eq_ok.2 rfl, h⟩
  rw [decode, Reader.whole, hread]

/-- A frame that differs in nothing from what the method starts with. -/
theorem decode_same {target : Nat} (h : target ≤ 63) :
    decode initial (bytes16 1 ++ [UInt8.ofNat target]) =
      .ok [{ offset := target, locals := initial.map some, stack := [] }] := by
  refine decode_eq_ok (bind_eq_ok.2 ⟨_, _, entry_same h, ?_⟩)
  simp [entries, pure_eq_ok]

/-- The same, and behind it a frame with one more integer. -/
theorem decode_same_append {first second : Nat} (h : first ≤ 63) (hlt : first < second)
    (h' : second - first - 1 < 2 ^ 16) :
    decode initial (bytes16 2 ++ [UInt8.ofNat first, 252] ++ bytesOfCount (second - first - 1) ++
      [1]) =
      .ok [{ offset := first, locals := initial.map some, stack := [] },
        { offset := second, locals := (initial ++ [ValueType.int]).map some, stack := [] }] := by
  simp only [List.append_assoc, List.cons_append, List.nil_append]
  refine decode_eq_ok (bind_eq_ok.2 ⟨_, _, entry_same h, ?_⟩)
  refine bind_eq_ok.2 ⟨_, _, bind_eq_ok.2 ⟨_, _, entry_append h', pure_eq_ok.2 ⟨rfl, rfl⟩⟩, ?_⟩
  refine pure_eq_ok.2 ⟨?_, rfl⟩
  have hoffset : 0 + first + 1 + (second - first - 1) = second := by omega
  rw [hoffset, Nat.zero_add, List.map_append]
  rfl

end StackMap

end ClassWeave
