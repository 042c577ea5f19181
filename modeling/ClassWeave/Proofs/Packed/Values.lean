import ClassWeave.Proofs.Machine.Memory
import ClassWeave.Proofs.Packed.Code

/-!
# Values in a slot

* `ValueKind.InRange` : the values that there are of a kind.
* `ValueKind.exists_encode` : every value of a kind is stored without loss.
-/

namespace ClassWeave

namespace ValueKind

/-- The values of a kind that is not stored as the number of a slot. -/
def InRange : ValueKind → Value → Prop
  | boolean, .int v => v = 0 ∨ v = 1
  | byte, .int v => -2 ^ 7 ≤ v.toInt ∧ v.toInt < 2 ^ 7
  | char, .int v => 0 ≤ v.toInt ∧ v.toInt < 2 ^ 16
  | short, .int v => -2 ^ 15 ≤ v.toInt ∧ v.toInt < 2 ^ 15
  | int, .int _ | float, .float _ | long, .long _ | double, .double _ => True
  | _, _ => False

theorem width_cell (kind : ValueKind) : kind.cell.width = kind.packedSize := by
  cases kind <;> rfl

theorem type_cell {kind : ValueKind} (h : kind.isPrimitive) : kind.cell.type = kind.type := by
  cases kind with
  | object | array => cases h
  | _ => rfl

/-- A number that fits into the low bytes with its sign is told by them. -/
theorem bmod_toNat_emod {i : Int} {n : Nat} (hlow : -((n : Int) / 2) ≤ i) (hhigh : i < (n + 1) / 2)
    (hn : 0 < n) : Int.bmod (i % n).toNat n = i := by
  rw [Int.toNat_of_nonneg (Int.emod_nonneg i (by omega)), Int.emod_bmod]
  exact Int.bmod_eq_of_le hlow hhigh

theorem ofInt_bmod_emod {v : Int32} {n : Nat} (hlow : -((n : Int) / 2) ≤ v.toInt)
    (hhigh : v.toInt < (n + 1) / 2) (hn : 0 < n) :
    Int32.ofInt (Int.bmod (v.toInt % n).toNat n) = v := by
  rw [bmod_toNat_emod hlow hhigh hn, Int32.ofInt_toInt]

theorem type_decode (c : Cell) (n : Nat) : (c.decode n).type = c.type := by
  cases c <;> rfl

/-- An integer is stored in 32 bits without loss. -/
theorem exists_encode_int (v : Int32) : ∃ n, Cell.int.encode? (.int v) = some n ∧
    n < 256 ^ Cell.int.width ∧ Cell.int.decode n = .int v := by
  have hlow := v.le_toInt
  have hhigh := v.toInt_lt
  refine ⟨_, rfl, ?_, congrArg Value.int (Int32.toInt_inj.1 ?_)⟩
  · show _ < 2 ^ 32
    omega
  · rw [Int32.toInt_ofNat']
    exact bmod_toNat_emod (n := 2 ^ 32) (by omega) (by omega) (by decide)

/-- **Every value of a kind is stored without loss.** -/
theorem exists_encode {kind : ValueKind} {v : Value} (h : kind.InRange v) : ∃ n,
    kind.cell.encode? v = some n ∧ n < 256 ^ kind.cell.width ∧ kind.cell.decode n = v := by
  cases kind with
  | boolean =>
    cases v with
    | int v =>
      rcases h with rfl | rfl
      · exact ⟨0, by decide, by decide, by decide⟩
      · exact ⟨1, by decide, by decide, by decide⟩
    | _ => cases h
  | byte =>
    cases v with
    | int v =>
      obtain ⟨hlow, hhigh⟩ : -2 ^ 7 ≤ v.toInt ∧ v.toInt < 2 ^ 7 := h
      refine ⟨_, rfl, ?_, congrArg Value.int ?_⟩
      · show _ < 2 ^ 8
        omega
      · exact ofInt_bmod_emod (n := 2 ^ 8) (by omega) (by omega) (by decide)
    | _ => cases h
  | char =>
    cases v with
    | int v =>
      obtain ⟨hlow, hhigh⟩ : 0 ≤ v.toInt ∧ v.toInt < 2 ^ 16 := h
      refine ⟨_, rfl, ?_, congrArg Value.int (Int32.toInt_inj.1 ?_)⟩
      · show _ < 2 ^ 16
        omega
      · rw [Int32.toInt_ofNat_of_lt (by omega)]
        omega
    | _ => cases h
  | short =>
    cases v with
    | int v =>
      obtain ⟨hlow, hhigh⟩ : -2 ^ 15 ≤ v.toInt ∧ v.toInt < 2 ^ 15 := h
      refine ⟨_, rfl, ?_, congrArg Value.int ?_⟩
      · show _ < 2 ^ 16
        omega
      · exact ofInt_bmod_emod (n := 2 ^ 16) (by omega) (by omega) (by decide)
    | _ => cases h
  | int =>
    cases v with
    | int v => exact exists_encode_int v
    | _ => cases h
  | float =>
    cases v with
    | float bits => exact ⟨bits.toNat, rfl, bits.toNat_lt, congrArg Value.float bits.ofNat_toNat⟩
    | _ => cases h
  | long =>
    cases v with
    | long v =>
      have hlow := v.le_toInt
      have hhigh := v.toInt_lt
      refine ⟨_, rfl, ?_, congrArg Value.long (Int64.toInt_inj.1 ?_)⟩
      · show _ < 2 ^ 64
        omega
      · rw [Int64.toInt_ofNat']
        exact bmod_toNat_emod (n := 2 ^ 64) (by omega) (by omega) (by decide)
    | _ => cases h
  | double =>
    cases v with
    | double bits => exact ⟨bits.toNat, rfl, bits.toNat_lt, congrArg Value.double bits.ofNat_toNat⟩
    | _ => cases h
  | object | array => cases h

end ValueKind

end ClassWeave
