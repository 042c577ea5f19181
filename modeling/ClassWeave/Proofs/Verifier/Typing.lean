import ClassWeave.Proofs.Machine.Code

/-!
# The types of values at hand

A verifier runs code on types in place of values.  An instruction that would find too few values,
or values of other types, has no result.

* `Typing`, `Typing.start` : the types that local variables and the operand stack hold, and those
  with which a method starts.
* `Instr.transfer?` : what an instruction makes of them.
* `Instr.depth_of_transfer?` : an instruction that fits changes the depth by its effect.
* `Piece.check?` : code in pieces, checked from its beginning to its end.
-/

namespace ClassWeave

/-- The types of the values that a running method has at hand. -/
structure Typing where
  /-- The places of the local variables.  A value that takes two places stands in the first, and
  nothing that can be used in the second. -/
  locals : List (Option ValueType)
  /-- The operand stack, top first. -/
  stack : List ValueType
  deriving DecidableEq, Repr

namespace Typing

/-- The places that the depth of the stack counts. -/
def depth (s : Typing) : Nat := ValueType.slotsOf s.stack

/-- The places that local variables take in a row. -/
def spread : List (Option ValueType) → List (Option ValueType)
  | [] => []
  | none :: rest => none :: spread rest
  | some type :: rest => some type :: (.replicate (type.slots - 1) none ++ spread rest)

/-- As many places for local variables as asked for, the first of which are taken. -/
def places (count : Nat) (locals : List (Option ValueType)) : List (Option ValueType) :=
  spread locals ++ .replicate (count - (spread locals).length) none

/-- What a method has at hand when it starts. -/
def start (maxLocals : Nat) (arguments : List ValueType) : Typing :=
  { locals := places maxLocals (arguments.map some), stack := [] }

/-- The stack without the values on top of it, which have to be of the given types. -/
def take? : List ValueType → List ValueType → Option (List ValueType)
  | [], stack => some stack
  | type :: types, top :: stack => if top = type then take? types stack else none
  | _ :: _, [] => none

/-- Other values in place of those on top of the stack. -/
def exchange? (takes gives : List ValueType) (s : Typing) : Option Typing :=
  (take? takes s.stack).map fun stack => { s with stack := gives ++ stack }

/-- The places of the local variables after a value was put into the one at `i`.  A value that
starts in the place before and takes two is lost. -/
def stored (locals : List (Option ValueType)) (i : Nat) (type : ValueType) :
    List (Option ValueType) :=
  let before := match i with
    | 0 => locals
    | j + 1 => locals.modify j fun type? => type?.filter fun type => type.slots = 1
  let at_ := before.set i (some type)
  if type.slots = 1 then at_ else at_.set (i + 1) none

theorem take?_eq_some {types stack rest : List ValueType} :
    take? types stack = some rest ↔ stack = types ++ rest := by
  induction types generalizing stack with
  | nil => simp [take?, eq_comm]
  | cons type types ih =>
    cases stack with
    | nil => simp [take?]
    | cons top stack =>
      by_cases htop : top = type
      · simp [take?, htop, ih]
      · simp [take?, htop]

theorem exchange?_eq_some {takes gives : List ValueType} {s s' : Typing} :
    exchange? takes gives s = some s' ↔
      ∃ rest, s.stack = takes ++ rest ∧ s' = { s with stack := gives ++ rest } := by
  simp only [exchange?, Option.map_eq_some_iff, take?_eq_some, eq_comm (a := s')]

@[simp] theorem length_stored (locals : List (Option ValueType)) (i : Nat) (type : ValueType) :
    (stored locals i type).length = locals.length := by
  unfold stored
  cases i <;> simp only <;> split <;> simp

end Typing

namespace Instr

open Descriptor (fieldType? signature?)

/-- What an instruction makes of the types at hand, unless it does not fit or returns.  A local
variable has to lie within the places that there are. -/
def transfer? : Instr → Typing → Option Typing
  | push value, s => s.exchange? [] [value.type]
  | load type i, s =>
    if s.locals[i]? = some (some type) ∧ i + type.slots ≤ s.locals.length then
      s.exchange? [] [type]
    else none
  | store type i, s =>
    if i + type.slots ≤ s.locals.length then
      (s.exchange? [type] []).map fun s => { s with locals := Typing.stored s.locals i type }
    else none
  | pop, s =>
    match s.stack with
    | type :: _ => if type.slots = 1 then s.exchange? [type] [] else none
    | [] => none
  | dup, s =>
    match s.stack with
    | type :: _ => if type.slots = 1 then s.exchange? [type] [type, type] else none
    | [] => none
  | add, s | mul, s => s.exchange? [.int, .int] [.int]
  | getStatic m, s => (fieldType? m.descriptor).bind fun type => s.exchange? [] [type]
  | putStatic m, s => (fieldType? m.descriptor).bind fun type => s.exchange? [type] []
  | getField m, s => (fieldType? m.descriptor).bind fun type => s.exchange? [.ref] [type]
  | putField m, s => (fieldType? m.descriptor).bind fun type => s.exchange? [type, .ref] []
  | invoke kind m, s => (signature? m.descriptor).bind fun signature =>
    s.exchange? (signature.parameters.reverse ++ if kind = .static then [] else [.ref])
      signature.result?.toList
  | new _, s => s.exchange? [] [.ref]
  | ifNonNull _, s => s.exchange? [.ref] []
  | ifGe _, s => s.exchange? [.int, .int] []
  | ret _, _ => none

/-- How far an instruction may jump. -/
def distance? : Instr → Option Int
  | ifNonNull distance | ifGe distance => some distance
  | _ => none

end Instr

namespace Typing

theorem slotsOf_append (types types' : List ValueType) :
    ValueType.slotsOf (types ++ types') = ValueType.slotsOf types + ValueType.slotsOf types' := by
  simp [ValueType.slotsOf]

theorem slotsOf_reverse (types : List ValueType) :
    ValueType.slotsOf types.reverse = ValueType.slotsOf types := by
  simp [ValueType.slotsOf, List.sum_reverse]

/-- The second state has as many local variables as the first, and the depth of its stack differs by
the effect. -/
structure Changes (effect : Int) (s s' : Typing) : Prop where
  /-- The number of local variables stays. -/
  locals : s'.locals.length = s.locals.length
  /-- The depth changes by the effect. -/
  depth : (s'.depth : Int) = s.depth + effect

variable {s s' : Typing}

theorem changes_of_exchange? {takes gives : List ValueType} {effect : Int}
    (h : s.exchange? takes gives = some s')
    (heffect : effect = ValueType.slotsOf gives - ValueType.slotsOf takes) :
    s.Changes effect s' := by
  obtain ⟨rest, hstack, rfl⟩ := exchange?_eq_some.1 h
  refine ⟨rfl, ?_⟩
  rw [depth, depth, hstack, slotsOf_append, slotsOf_append]
  omega

end Typing

namespace Instr

open Typing

variable {s s' : Typing}

/-- **An instruction that fits** keeps the number of local variables, and changes the depth of the
operand stack by its effect. -/
theorem changes_of_transfer? {i : Instr} (h : i.transfer? s = some s') :
    s.Changes i.effect s' := by
  cases i with
  | push | new | ifNonNull | ifGe | add | mul => exact changes_of_exchange? h rfl
  | load =>
    simp only [transfer?] at h
    split_ifs at h
    exact changes_of_exchange? h rfl
  | store type i =>
    simp only [transfer?] at h
    split_ifs at h
    obtain ⟨t, ht, rfl⟩ := Option.map_eq_some_iff.1 h
    obtain ⟨hlocals, hdepth⟩ := changes_of_exchange? ht rfl
    refine ⟨by simpa using hlocals, ?_⟩
    show (t.depth : Int) = _
    simpa [effect, ValueType.slotsOf] using hdepth
  | pop | dup =>
    simp only [transfer?] at h
    split at h
    · split_ifs at h with hslots
      exact changes_of_exchange? h (by simp [effect, ValueType.slotsOf, hslots])
    · cases h
  | getStatic | putStatic | getField | putField =>
    obtain ⟨type, htype, h⟩ := Option.bind_eq_some_iff.1 h
    refine changes_of_exchange? h ?_
    rw [effect, htype]
    simp only [ValueType.slotsOf, List.map_cons, List.map_nil, List.sum_cons, List.sum_nil,
      Option.getD_some, ValueType.slots]
    omega
  | invoke kind m =>
    obtain ⟨signature, hsignature, h⟩ := Option.bind_eq_some_iff.1 h
    refine changes_of_exchange? h ?_
    rw [effect_invoke hsignature, slotsOf_append, slotsOf_reverse]
    have hreceiver : (ValueType.slotsOf (if kind = .static then [] else [.ref]) : Int) =
        if kind = .static then 0 else 1 := by
      split <;> rfl
    rw [Int.natCast_add, hreceiver]
    omega
  | ret => cases h

/-! ### Code in pieces -/

/-- What an instruction that does not branch makes of the types at hand. -/
def straight? (i : Instr) (s : Typing) : Option Typing :=
  if i.distance? = none then i.transfer? s else none

theorem straight?_eq_some {i : Instr} :
    i.straight? s = some s' ↔ i.distance? = none ∧ i.transfer? s = some s' := by
  unfold straight?
  split_ifs with h
  · exact (and_iff_right h).symm
  · exact ⟨nofun, fun h' => absurd h'.1 h⟩

/-- What instructions in a row that do not branch make of the types at hand. -/
def through? : List Instr → Typing → Option Typing
  | [], s => some s
  | i :: is, s => (i.straight? s).bind (through? is)

end Instr

namespace Test

/-- What a branch makes of the types at hand does not depend on how far it jumps. -/
theorem transfer?_jump (test : Test) (distance : Int) (s : Typing) :
    (test.jump distance).transfer? s = (test.jump 0).transfer? s := by
  cases test <;> rfl

theorem distance?_jump (test : Test) (distance : Int) :
    (test.jump distance).distance? = some distance := by
  cases test <;> rfl

theorem effect_jump (test : Test) (distance : Int) :
    (test.jump distance).effect = test.effect := by
  cases test <;> rfl

end Test

/-- Checks code in pieces that ends in its only return, which has to give what the method gives.
Instructions that may be skipped have to leave the types at hand as they were behind the test.
Yields the types at hand where the branches lead. -/
def Piece.check? (result? : Option ValueType) : List Piece → Typing → Option (List Typing)
  | [], _ => none
  | .plain (.ret type?) :: code, s =>
    if code = [] ∧ type? = result? ∧ Typing.take? type?.toList s.stack ≠ none then some []
    else none
  | .plain i :: code, s => (i.straight? s).bind (check? result? code)
  | .guarded test inner :: code, s =>
    ((test.jump 0).transfer? s).bind fun s' =>
      if Instr.through? inner s' = some s' then (check? result? code s').map (s' :: ·) else none

theorem Piece.check?_plain {result? : Option ValueType} {i : Instr} {code : List Piece} {s : Typing}
    (h : ∀ type?, i ≠ .ret type?) :
    check? result? (.plain i :: code) s = (i.straight? s).bind (check? result? code) := by
  cases i with
  | ret type? => exact absurd rfl (h type?)
  | _ => rfl

end ClassWeave
