import ClassWeave.Proofs.Instruction
import Mathlib.Data.List.Chain

/-!
# Walking tiles a body

Whoever puts one instruction in place of another relies on never landing inside a third.  The walk
over a body starts at its beginning and goes from every instruction to the byte behind it, so it
finds all instructions just when the body is nothing but complete instructions in a row.

How long an instruction is only hangs on its own bytes and, because the tables of a switch are
aligned, on its offset modulo four.

* `Instruction.lengthAt_of_take_eq` : what a length hangs on.
* `Instruction.Walk`, `Walk.unique` : the walk ends in one way, whatever the bytes are.
* `Instruction.Tiles` : the offsets lead from the beginning of a body to its end without a gap.
* `Instruction.offsetsFrom_eq_error` : where the walk gives up.
* `Instruction.tiles_offsets` : the walk finds the instructions of every body that is made of them.
-/

namespace ClassWeave

namespace Instruction

variable {offset offset' n : Nat} {opcode : UInt8} {w code code' : Bytes} {row : List Bytes}
  {offs : List Nat} {cause : Malformation} {result result' : Except Malformation (List Nat)}

/-! ### What a length hangs on -/

theorem padding_eq_of_mod (h : offset' % 4 = offset % 4) : padding offset' = padding offset := by
  unfold padding
  omega

/-- What an instruction claims stays the same when it is moved by a multiple of four. -/
theorem Claims.moved (h : Claims offset opcode w n) (hmod : offset' % 4 = offset % 4) :
    Claims offset' opcode w n := by
  have hpad := padding_eq_of_mod hmod
  cases h with
  | fixed hfixed => exact .fixed hfixed
  | table hopcode hlow hhigh horder =>
    rw [← hpad] at hlow hhigh ⊢
    exact .table hopcode hlow hhigh horder
  | lookup hopcode hpairs hnonneg =>
    rw [← hpad] at hpairs ⊢
    exact .lookup hopcode hpairs hnonneg
  | wide hopcode hcons => exact .wide hopcode hcons

/-- An instruction takes at least a byte, and ends within the body. -/
theorem bounds_of_lengthAt (h : lengthAt code offset = .ok n) :
    0 < n ∧ offset + n ≤ code.length := by
  unfold lengthAt at h
  cases hdrop : code.drop offset with
  | nil =>
    rw [hdrop] at h
    cases h
  | cons opcode w =>
    rw [hdrop] at h
    obtain ⟨hclaims, hle⟩ := length_eq_ok.1 h
    have hlength := congrArg List.length hdrop
    rw [List.length_drop, List.length_cons] at hlength
    exact ⟨hclaims.pos, by omega⟩

/-- **A length hangs on the bytes of the instruction and on its offset modulo four.** -/
theorem lengthAt_of_take_eq (h : lengthAt code offset = .ok n) (hmod : offset' % 4 = offset % 4)
    (hbytes : (code'.drop offset').take n = (code.drop offset).take n) :
    lengthAt code' offset' = .ok n := by
  unfold lengthAt at h ⊢
  cases hdrop : code.drop offset with
  | nil =>
    rw [hdrop] at h
    cases h
  | cons opcode w =>
    rw [hdrop] at h hbytes
    obtain ⟨hclaims, hle⟩ := length_eq_ok.1 h
    obtain ⟨m, rfl⟩ := Nat.exists_eq_succ_of_ne_zero hclaims.pos.ne'
    cases hdrop' : code'.drop offset' with
    | nil =>
      rw [hdrop'] at hbytes
      cases hbytes
    | cons opcode' w' =>
      rw [hdrop'] at hbytes
      obtain ⟨rfl, hw⟩ := List.cons.inj hbytes
      have hlength := congrArg List.length hw
      rw [List.length_take, List.length_take] at hlength
      exact length_eq_ok.2 ⟨(hclaims.of_take_eq hw.symm).moved hmod, by omega⟩

/-! ### The walk -/

/-- What the walk over a body comes to from an offset on.  Within the body it takes down where it
is and goes on behind the instruction there, and it gives up where there is none. -/
inductive Walk (code : Bytes) : Nat → Except Malformation (List Nat) → Prop
  /-- The end of the body is reached. -/
  | ended {offset : Nat} : code.length ≤ offset → Walk code offset (.ok [])
  /-- There is no complete instruction. -/
  | stuck {offset : Nat} {cause : Malformation} : offset < code.length →
    lengthAt code offset = .error cause → Walk code offset (.error cause)
  /-- There is an instruction, and the walk goes on behind it. -/
  | step {offset n : Nat} {result : Except Malformation (List Nat)} : offset < code.length →
    lengthAt code offset = .ok n → Walk code (offset + n) result →
    Walk code offset ((offset :: ·) <$> result)

theorem offsetsFrom_of_stuck (h : offset < code.length)
    (hcause : lengthAt code offset = .error cause) :
    offsetsFrom 0 offset (code.drop offset) = .error cause := by
  rw [List.drop_eq_getElem_cons h, offsetsFrom, ← List.drop_eq_getElem_cons h]
  unfold lengthAt at hcause
  rw [hcause]
  rfl

/-- The walk ends from every offset, because every step leaves fewer bytes. -/
theorem walk_offsetsFrom (code : Bytes) (offset : Nat) :
    Walk code offset (offsetsFrom 0 offset (code.drop offset)) := by
  induction hleft : code.length - offset using Nat.strongRecOn generalizing offset with
  | ind left ih =>
  by_cases hend : code.length ≤ offset
  · rw [List.drop_eq_nil_of_le hend]
    exact .ended hend
  have hlt := Nat.lt_of_not_le hend
  cases hlength : lengthAt code offset with
  | error cause =>
    rw [offsetsFrom_of_stuck hlt hlength]
    exact .stuck hlt hlength
  | ok n =>
    have hpos := (bounds_of_lengthAt hlength).1
    rw [offsetsFrom_drop hlength hpos]
    exact .step hlt hlength (ih _ (by omega) _ rfl)

/-- The walk comes to one result only. -/
theorem Walk.unique (h : Walk code offset result) (h' : Walk code offset result') :
    result = result' := by
  induction h generalizing result' with
  | ended hend =>
    cases h' with
    | ended => rfl
    | stuck hlt | step hlt => omega
  | stuck hlt hcause =>
    cases h' with
    | ended hend => omega
    | stuck _ hcause' => rw [Except.error.inj (hcause.symm.trans hcause')]
    | step _ hlength => cases hcause.symm.trans hlength
  | step hlt hlength _ ih =>
    cases h' with
    | ended hend => omega
    | stuck _ hcause => cases hlength.symm.trans hcause
    | step _ hlength' hlater =>
      cases hlength.symm.trans hlength'
      rw [ih hlater]

theorem walk_iff : Walk code 0 result ↔ result = offsets code := by
  have hwalk := walk_offsetsFrom code 0
  rw [List.drop_zero] at hwalk
  constructor
  · exact fun h => h.unique hwalk
  · rintro rfl
    exact hwalk

/-! ### No gaps -/

/-- The offsets lead from the beginning of a body to its end, one instruction behind the other. -/
structure Tiles (code : Bytes) (offs : List Nat) : Prop where
  /-- The first instruction starts where the body does. -/
  first : offs.head? = if code = [] then none else some 0
  /-- The next instruction starts where one ends. -/
  next : offs.IsChain fun a b => ∃ n, lengthAt code a = .ok n ∧ b = a + n
  /-- The last ends where the body does. -/
  last : ∀ a ∈ offs.getLast?, ∃ n, lengthAt code a = .ok n ∧ code.length = a + n

theorem Walk.head? (h : Walk code offset (.ok offs)) :
    offs.head? = if offset < code.length then some offset else none := by
  generalize hresult : Except.ok offs = result at h
  cases h with
  | ended hend =>
    cases hresult
    rw [if_neg (Nat.not_lt.2 hend)]
    rfl
  | stuck => cases hresult
  | step hlt =>
    obtain ⟨later, -, rfl⟩ := except_map_eq_ok.1 hresult.symm
    rw [if_pos hlt]
    rfl

/-- The walk goes from every instruction to the next, and from the last to the end. -/
theorem Walk.joins (h : Walk code offset (.ok offs)) (hoffset : offset ≤ code.length) :
    (offs.IsChain fun a b => ∃ n, lengthAt code a = .ok n ∧ b = a + n) ∧
      ∀ a ∈ offs.getLast?, ∃ n, lengthAt code a = .ok n ∧ code.length = a + n := by
  generalize hresult : Except.ok offs = result at h
  induction h generalizing offs with
  | ended =>
    cases hresult
    exact ⟨.nil, by simp⟩
  | stuck => cases hresult
  | @step offset n _ hlt hlength hwalk ih =>
    obtain ⟨later, rfl, rfl⟩ := except_map_eq_ok.1 hresult.symm
    have hend := (bounds_of_lengthAt hlength).2
    obtain ⟨hnext, hlast⟩ := ih hend rfl
    have hhead := hwalk.head?
    cases later with
    | nil =>
      have hreached : code.length = offset + n := by
        by_contra hne
        rw [if_pos (by omega)] at hhead
        cases hhead
      refine ⟨.singleton _, fun a ha => ⟨n, ?_, ?_⟩⟩
      all_goals
        obtain rfl : offset = a := by simpa using ha
        assumption
    | cons b later =>
      rw [List.head?_cons] at hhead
      split_ifs at hhead
      obtain rfl := Option.some.inj hhead
      refine ⟨List.isChain_cons_cons.2 ⟨⟨n, hlength, rfl⟩, hnext⟩, ?_⟩
      rwa [List.getLast?_cons_cons]

theorem tiles_of_offsets (h : offsets code = .ok offs) : Tiles code offs := by
  have hwalk : Walk code 0 (.ok offs) := walk_iff.2 h.symm
  obtain ⟨hnext, hlast⟩ := hwalk.joins (Nat.zero_le _)
  refine ⟨?_, hnext, hlast⟩
  rw [hwalk.head?]
  cases code <;> simp

/-! ### Where the walk gives up -/

/-- The walk gives up at the first place where no complete instruction follows. -/
theorem offsetsFrom_eq_error : offsetsFrom 0 offset code = .error cause ↔ ∃ row rest,
    Row offset row ∧ code = row.flatten ++ rest ∧ rest ≠ [] ∧
      length (offset + row.flatten.length) rest = .error cause := by
  constructor
  · intro h
    induction hsize : code.length using Nat.strongRecOn generalizing offset code with
    | ind size ih =>
    cases code with
    | nil => cases h
    | cons opcode rest =>
      cases hlength : length offset (opcode :: rest) with
      | error cause' =>
        rw [offsetsFrom, hlength] at h
        obtain rfl := Except.error.inj h
        exact ⟨[], opcode :: rest, .nil, rfl, List.cons_ne_nil _ _, hlength⟩
      | ok n =>
        obtain ⟨w, later, rfl, hclaims⟩ := exists_whole hlength
        rw [← List.cons_append, offsetsFrom_cons hclaims, except_map_eq_error] at h
        have hshorter : later.length < size := by
          rw [← hsize, List.length_cons, List.length_append]
          omega
        obtain ⟨row, rest, hrow, rfl, hne, hcause⟩ := ih _ hshorter h rfl
        refine ⟨(opcode :: w) :: row, rest, .cons hclaims hrow, ?_, hne, ?_⟩
        · rw [List.flatten_cons, ← List.cons_append, List.append_assoc]
        · rwa [List.flatten_cons, List.length_append, List.length_cons, ← Nat.add_assoc]
  · rintro ⟨row, rest, hrow, rfl, hne, hcause⟩
    induction hrow with
    | nil =>
      obtain ⟨opcode, rest, rfl⟩ := List.exists_cons_of_ne_nil hne
      rw [List.flatten_nil, List.nil_append, offsetsFrom]
      rw [List.flatten_nil, List.length_nil, Nat.add_zero] at hcause
      rw [hcause]
      rfl
    | @cons offset opcode w row hclaims _ ih =>
      rw [List.flatten_cons, List.append_assoc, offsetsFrom_cons hclaims, except_map_eq_error]
      apply ih
      rwa [List.flatten_cons, List.length_append, List.length_cons, ← Nat.add_assoc] at hcause

/-- **The walk finds the instructions of every body that is made of them.**  It ends on all bytes.
It comes to offsets just when the body is nothing but complete instructions in a row, each taken at
its own offset, and then these are where the instructions start, and lead from the beginning of the
body to its end without a gap.  Otherwise it fails for what is wrong behind the last instruction.
The length of an instruction only hangs on its own bytes and on its offset modulo four. -/
theorem tiles_offsets (code : Bytes) :
    (∀ result, Walk code 0 result ↔ result = offsets code) ∧
    (∀ offs, offsets code = .ok offs ↔
      ∃ row, Row 0 row ∧ code = row.flatten ∧ offs = starts 0 row) ∧
    (∀ offs, offsets code = .ok offs → Tiles code offs) ∧
    (∀ cause, offsets code = .error cause ↔ ∃ row rest, Row 0 row ∧ code = row.flatten ++ rest ∧
      rest ≠ [] ∧ length row.flatten.length rest = .error cause) ∧
    ∀ offset n, lengthAt code offset = .ok n → ∀ code' offset', offset' % 4 = offset % 4 →
      (code'.drop offset').take n = (code.drop offset).take n → lengthAt code' offset' = .ok n := by
  refine ⟨fun _ => walk_iff, fun offs => ⟨fun h => ?_, ?_⟩, fun _ => tiles_of_offsets,
    fun cause => ?_, fun offset n h code' offset' => lengthAt_of_take_eq h⟩
  · obtain ⟨row, hrow, rfl⟩ := row_of_offsetsFrom h
    exact ⟨row, hrow, rfl, Except.ok.inj (h.symm.trans hrow.offsetsFrom)⟩
  · rintro ⟨row, hrow, rfl, rfl⟩
    exact hrow.offsetsFrom
  · have hwhole := @offsetsFrom_eq_error 0 code cause
    simp only [Nat.zero_add] at hwhole
    exact hwhole

/-- A switch with two entries, behind one other instruction.  Its table starts at offset 4 behind
two bytes that pad it, so it has the same length at offset 5 of another body. -/
theorem tiles_offsets_switch :
    let switch : Bytes := [0xaa, 0, 0, 0, 0, 0, 0, 0, 0, 0, 0, 0, 0, 0, 1, 0, 0, 0, 0, 0, 0, 0, 0]
    Tiles (0 :: switch) [0, 1] ∧ lengthAt (0 :: switch) 1 = .ok 23 ∧
      lengthAt ([0, 0, 0, 0, 0] ++ switch) 5 = .ok 23 := by
  intro switch
  obtain ⟨-, -, htiles, -, hlength⟩ := tiles_offsets (0 :: switch)
  have hhere : lengthAt (0 :: switch) 1 = .ok 23 := by decide
  exact ⟨htiles _ (by decide), hhere, hlength 1 23 hhere _ 5 rfl (by decide)⟩

end Instruction

end ClassWeave
