import ClassWeave.Pool.Codec
import ClassWeave.Proofs.Bytes.Reading
import ClassWeave.Proofs.Text.ModifiedUtf8
import Mathlib.Data.List.ReduceOption

/-!
# The stored forms of a constant pool

* `Constant.decodes_reader`, `ConstantPool.decodes_reader` : which bytes are read as which constant
  or pool.  A text can be stored in several ways, everything else in one.
* `ConstantPool.slotsOf` : the slots of constants in a row.
* `ConstantPool.LaidOut`, `ConstantPool.WellFormed` : the pools whose slots can be stored, and those
  whose texts can be stored as well.
* `ConstantPool.form_write` : writing a well-formed pool gives one of its stored forms.
-/

namespace ClassWeave

open Reader

namespace Constant

/-- The ways to store a constant: a text by any bytes that stand for it, everything else by one. -/
def Form : Constant → Bytes → Prop
  | .utf8 text, bs => ∃ payload : Bytes, ModifiedUtf8.decode payload = .ok text ∧
      payload.length < 2 ^ 16 ∧ bs = 1 :: (bytesOfCount payload.length ++ payload)
  | c, bs => bs = c.write

theorem form_of_reader {data rest : Bytes} {c : Constant} (h : reader data = .ok (c, rest)) :
    ∃ bs, c.Form bs ∧ data = bs ++ rest := by
  rw [reader, bind_eq_ok] at h
  obtain ⟨tag, mid, htag, h⟩ := h
  obtain rfl := u8_eq_ok.1 htag
  generalize ht : tag.toNat = t at h
  rw [← UInt8.ofNat_toNat (x := tag), ht]
  clear htag
  split at h
  -- a text
  case h_1 =>
    obtain ⟨length, mid, hlength, h⟩ := bind_eq_ok.1 h
    obtain ⟨payload, mid, hpayload, h⟩ := bind_eq_ok.1 h
    obtain ⟨text, mid, htext, h⟩ := bind_eq_ok.1 h
    obtain rfl := u16_eq_ok.1 hlength
    obtain ⟨hlen, rfl⟩ := bytes_eq_ok.1 hpayload
    obtain ⟨hdecode, rfl⟩ := lift_eq_ok.1 htext
    obtain ⟨rfl, rfl⟩ := pure_eq_ok.1 h
    refine ⟨_, ⟨payload, hdecode, hlen ▸ length.toNat_lt, rfl⟩, ?_⟩
    simp [hlen, bytesOfCount_toNat]
  case h_18 => exact (throw_ne_ok h).elim
  all_goals
    simp only [bind_eq_ok, u8_eq_ok, u16_eq_ok, u32_eq_ok, u64_eq_ok, pure_eq_ok] at h
  -- two slots
  case h_8 | h_9 | h_10 | h_11 | h_12 | h_14 | h_15 =>
    obtain ⟨_, _, rfl, _, _, rfl, rfl, rfl⟩ := h
    exact ⟨_, rfl, by simp [write]⟩
  -- one number
  all_goals
    obtain ⟨_, _, rfl, rfl, rfl⟩ := h
    exact ⟨_, rfl, by simp [write]⟩

theorem reader_of_form {bs rest : Bytes} {c : Constant} (h : c.Form bs) :
    reader (bs ++ rest) = .ok (c, rest) := by
  cases c
  case utf8 text =>
    obtain ⟨payload, htext, hlen, rfl⟩ := h
    have hn : (UInt16.ofNat payload.length).toNat = payload.length := toNat_ofNat_half hlen
    refine bind_eq_ok.2 ⟨1, _, u8_eq_ok.2 rfl, ?_⟩
    refine bind_eq_ok.2 ⟨.ofNat payload.length, payload ++ rest, u16_eq_ok.2 ?_, ?_⟩
    · simp [bytesOfCount, bytes16, hn]
    refine bind_eq_ok.2 ⟨payload, rest, bytes_eq_ok.2 ⟨hn.symm, rfl⟩, ?_⟩
    exact bind_eq_ok.2 ⟨text, rest, lift_eq_ok.2 ⟨htext, rfl⟩, pure_eq_ok.2 ⟨rfl, rfl⟩⟩
  all_goals
    subst h
    refine bind_eq_ok.2 ⟨_, _, u8_eq_ok.2 rfl, ?_⟩
  case integer value =>
    exact bind_eq_ok.2 ⟨value.toUInt32, _, u32_eq_ok.2 rfl, pure_eq_ok.2 ⟨rfl, rfl⟩⟩
  case long value =>
    exact bind_eq_ok.2 ⟨value.toUInt64, _, u64_eq_ok.2 rfl, pure_eq_ok.2 ⟨rfl, rfl⟩⟩
  case float => exact bind_eq_ok.2 ⟨_, _, u32_eq_ok.2 rfl, pure_eq_ok.2 ⟨rfl, rfl⟩⟩
  case double => exact bind_eq_ok.2 ⟨_, _, u64_eq_ok.2 rfl, pure_eq_ok.2 ⟨rfl, rfl⟩⟩
  case methodHandle =>
    refine bind_eq_ok.2 ⟨_, _, u8_eq_ok.2 rfl, ?_⟩
    exact bind_eq_ok.2 ⟨_, _, u16_eq_ok.2 rfl, pure_eq_ok.2 ⟨rfl, rfl⟩⟩
  case fieldRef | methodRef | interfaceMethodRef | nameAndType | dynamic | invokeDynamic =>
    refine bind_eq_ok.2 ⟨_, _, u16_eq_ok.2 (List.append_assoc ..), ?_⟩
    exact bind_eq_ok.2 ⟨_, _, u16_eq_ok.2 rfl, pure_eq_ok.2 ⟨rfl, rfl⟩⟩
  all_goals exact bind_eq_ok.2 ⟨_, _, u16_eq_ok.2 rfl, pure_eq_ok.2 ⟨rfl, rfl⟩⟩

theorem decodes_reader (n : Nat) : reader.Decodes n Form := by
  intro data _ c rest
  constructor
  · exact form_of_reader
  · rintro ⟨bs, hbs, rfl⟩
    exact reader_of_form hbs

/-- The length of a text fits into the half word in front of it. -/
def Fits : Constant → Prop
  | .utf8 text => (ModifiedUtf8.encode text).length < 2 ^ 16
  | _ => True

instance : DecidablePred Fits
  | .utf8 text => Nat.decLt (ModifiedUtf8.encode text).length (2 ^ 16)
  | .integer _ | .float _ | .long _ | .double _ | .classInfo _ | .string _ | .fieldRef _ _
  | .methodRef _ _ | .interfaceMethodRef _ _ | .nameAndType _ _ | .methodHandle _ _ | .methodType _
  | .dynamic _ _ | .invokeDynamic _ _ | .moduleInfo _ | .packageInfo _ => .isTrue trivial

theorem form_write {c : Constant} (h : c.Fits) : c.Form c.write := by
  cases c with
  | utf8 text => exact ⟨_, ModifiedUtf8.decode_encode text, h, rfl⟩
  | _ => rfl

end Constant

namespace ConstantPool

/-- The slots that constants in a row take, each wide one with the empty slot behind it. -/
def slotsOf : List Constant → List (Option Constant)
  | [] => []
  | c :: cs => some c :: (if c.isWide then none :: slotsOf cs else slotsOf cs)

/-- The slots of constants in a row, `n` in all, and the bytes of the constants. -/
def SlotsForm (n : Nat) (slots : List (Option Constant)) (bs : Bytes) : Prop :=
  slots.length = n ∧ ∃ cs, slots = slotsOf cs ∧ Row Constant.Form cs bs

theorem slotsForm_zero {slots : List (Option Constant)} {bs : Bytes} :
    SlotsForm 0 slots bs ↔ slots = [] ∧ bs = [] := by
  constructor
  · rintro ⟨hlen, cs, rfl, hrow⟩
    cases cs with
    | nil => exact ⟨rfl, hrow⟩
    | cons => cases hlen
  · rintro ⟨rfl, rfl⟩
    exact ⟨rfl, [], rfl, rfl⟩

theorem slotsForm_succ {n : Nat} {slots : List (Option Constant)} {bs : Bytes} :
    SlotsForm (n + 1) slots bs ↔ ∃ c front back, c.Form front ∧ bs = front ++ back ∧
      if c.isWide then ∃ m tail, n = m + 1 ∧ slots = some c :: none :: tail ∧ SlotsForm m tail back
      else ∃ tail, slots = some c :: tail ∧ SlotsForm n tail back := by
  constructor
  · rintro ⟨hlen, cs, rfl, hrow⟩
    cases cs with
    | nil => cases hlen
    | cons c cs =>
      obtain ⟨front, back, hc, hcs, rfl⟩ := hrow
      refine ⟨c, front, back, hc, rfl, ?_⟩
      simp only [slotsOf] at hlen ⊢
      split
      · rename_i hwide
        simp only [hwide, if_true, List.length_cons, Nat.add_right_cancel_iff] at hlen
        exact ⟨_, _, hlen.symm, rfl, rfl, cs, rfl, hcs⟩
      · rename_i hwide
        simp only [hwide, List.length_cons, Nat.add_right_cancel_iff] at hlen
        exact ⟨_, rfl, hlen, cs, rfl, hcs⟩
  · rintro ⟨c, front, back, hc, rfl, h⟩
    split at h
    · rename_i hwide
      obtain ⟨m, _, rfl, rfl, hlen, cs, rfl, hrow⟩ := h
      exact ⟨by simp [hlen], c :: cs, by simp [slotsOf, hwide], front, back, hc, hrow, rfl⟩
    · rename_i hwide
      obtain ⟨_, rfl, hlen, cs, rfl, hrow⟩ := h
      exact ⟨by simp [hlen], c :: cs, by simp [slotsOf, hwide], front, back, hc, hrow, rfl⟩

theorem decodes_slotsReader (n k : Nat) : (slotsReader k).Decodes n (SlotsForm k) := by
  -- no slot, the last slot, and a slot with more behind it
  fun_induction slotsReader k with
  | case1 =>
    exact (decodes_pure n []).congr fun slots bs => slotsForm_zero.symm
  | case2 =>
    refine (decodes_bind (Constant.decodes_reader n) fun c =>
      decodes_ite (fun _ => decodes_throw n .wideInLastSlot) fun _ => decodes_pure n [some c]).congr
        fun slots bs => ?_
    simp only [slotsForm_succ, slotsForm_zero]
    grind
  | case3 k ih ih' =>
    refine (decodes_bind (Constant.decodes_reader n) fun c =>
      decodes_ite (fun _ => decodes_map ih (some c :: none :: ·))
        fun _ => decodes_map ih' (some c :: ·)).congr fun slots bs => ?_
    rw [slotsForm_succ]
    grind

/-- The bytes that a pool can be stored by: its count of slots, and its constants in a row. -/
def Form (p : ConstantPool) (bs : Bytes) : Prop :=
  p.size < 2 ^ 16 ∧ ∃ cs row, p.slots.toList = none :: slotsOf cs ∧ Row Constant.Form cs row ∧
    bs = bytesOfCount p.size ++ row

theorem decodes_reader (n : Nat) : reader.Decodes n Form := by
  refine (decodes_bind (decodes_u16 n) fun k => (?_ : Decodes n _ fun p bs =>
    p.size = k.toNat ∧ ∃ cs, p.slots.toList = none :: slotsOf cs ∧ Row Constant.Form cs bs)).congr
      fun p bs => ?_
  · -- slot 0 is counted, but not stored
    split
    · rename_i hk
      refine (decodes_throw n .noPoolSlots).congr fun p bs => ?_
      simp only [false_iff]
      rintro ⟨hsize, cs, hslots, -⟩
      simp only [size, ← Array.length_toList, hslots, hk] at hsize
      cases hsize
    · rename_i m hk
      refine (decodes_map (decodes_slotsReader n m) fun slots =>
        (⟨(none :: slots).toArray⟩ : ConstantPool)).congr fun p bs => ?_
      constructor
      · rintro ⟨_, rfl, hlen, cs, rfl, hrow⟩
        exact ⟨by simp [size, hlen, hk], cs, rfl, hrow⟩
      · rintro ⟨hsize, cs, hslots, hrow⟩
        refine ⟨slotsOf cs, ?_, ?_, cs, rfl, hrow⟩
        · rw [← hslots]
        · simpa [size, ← Array.length_toList, hslots, hk] using hsize
  · constructor
    · rintro ⟨k, _, row, rfl, ⟨hsize, cs, hslots, hrow⟩, rfl⟩
      exact ⟨hsize ▸ k.toNat_lt, cs, row, hslots, hrow, by rw [hsize, bytesOfCount_toNat]⟩
    · rintro ⟨hlt, cs, row, hslots, hrow, rfl⟩
      have hk : (UInt16.ofNat p.size).toNat = p.size := toNat_ofNat_half hlt
      exact ⟨.ofNat p.size, _, row, rfl, ⟨hk.symm, cs, hslots, hrow⟩,
        by rw [bytes16, hk, bytesOfCount]⟩

theorem reduceOption_slotsOf (cs : List Constant) : (slotsOf cs).reduceOption = cs := by
  induction cs with
  | nil => rfl
  | cons c cs ih =>
    simp only [slotsOf]
    split <;> simpa [List.reduceOption] using ih

theorem write_eq {p : ConstantPool} {cs : List Constant}
    (h : p.slots.toList = none :: slotsOf cs) :
    p.write = bytesOfCount p.size ++ cs.flatMap Constant.write := by
  have hcs : (none :: slotsOf cs).reduceOption = cs := by
    simpa [List.reduceOption] using reduceOption_slotsOf cs
  rw [write, h, hcs]

/-! ### Well-formed pools -/

/-- Slot 0 is empty, as is the slot after each wide constant, and no other, so the slots lie as
those of constants in a row behind slot 0; and their number can be told. -/
structure LaidOut (p : ConstantPool) : Prop where
  /-- Slot 0 is there, and empty. -/
  first : p.slots[0]? = some none
  /-- Beyond it, the empty slots are those after wide constants. -/
  gaps : ∀ i, p.slots[i + 1]? = some none ↔ ∃ c, p.slots[i]? = some (some c) ∧ c.isWide = true
  /-- The count of slots fits into a half word. -/
  size_le : p.size ≤ 65535

/-- The slots lie as they should, and the lengths of the texts fit into half words as well. -/
structure WellFormed (p : ConstantPool) : Prop extends LaidOut p where
  /-- The texts are short enough. -/
  texts : ∀ text, some (.utf8 text) ∈ p.slots → (ModifiedUtf8.encode text).length ≤ 65535

theorem exists_slotsOf (first : Option Constant) (rest : List (Option Constant))
    (h : ∀ i, (first :: rest)[i + 1]? = some none ↔
      ∃ c, (first :: rest)[i]? = some (some c) ∧ c.isWide = true) :
    ∃ cs, rest = if first.any Constant.isWide then none :: slotsOf cs else slotsOf cs := by
  -- the induction moves the first slot along: it decides whether a gap follows
  induction rest generalizing first with
  | nil =>
    have h0 := h 0
    refine ⟨[], ?_⟩
    cases first <;> simp_all [slotsOf]
  | cons slot rest ih =>
    obtain ⟨cs, rfl⟩ := ih slot fun i => by simpa using h (i + 1)
    have h0 := h 0
    cases slot with
    | none =>
      refine ⟨cs, ?_⟩
      cases first <;> simp_all
    | some c =>
      refine ⟨c :: cs, ?_⟩
      cases first <;> simp_all [slotsOf]

theorem gaps_slotsOf (first : Option Constant) (cs : List Constant)
    (hfirst : first.any Constant.isWide = false) (i : Nat) :
    (first :: slotsOf cs)[i + 1]? = some none ↔
      ∃ c, (first :: slotsOf cs)[i]? = some (some c) ∧ c.isWide = true := by
  induction cs generalizing first i with
  | nil =>
    cases first <;> cases i <;> simp_all [slotsOf]
  | cons c cs ih =>
    cases i with
    | zero => cases first <;> simp_all [slotsOf]
    | succ i =>
      simp only [slotsOf, List.getElem?_cons_succ]
      split
      · rename_i hwide
        cases i with
        | zero => simp [hwide]
        | succ i => simpa using ih none rfl i
      · rename_i hwide
        exact ih (some c) (by simpa using hwide) i

theorem mem_slotsOf {cs : List Constant} {c : Constant} : some c ∈ slotsOf cs ↔ c ∈ cs := by
  induction cs with
  | nil => simp [slotsOf]
  | cons d cs ih =>
    simp only [slotsOf]
    split <;> simp [ih]

theorem laidOut_iff {p : ConstantPool} :
    p.LaidOut ↔ p.size < 2 ^ 16 ∧ ∃ cs, p.slots.toList = none :: slotsOf cs := by
  constructor
  · intro h
    refine ⟨Nat.lt_succ_of_le h.size_le, ?_⟩
    have hfirst : p.slots.toList[0]? = some none := by simpa using h.first
    cases hslots : p.slots.toList with
    | nil => simp [hslots] at hfirst
    | cons slot rest =>
      obtain rfl : slot = none := by simpa [hslots] using hfirst
      have hgaps := h.gaps
      simp only [← Array.getElem?_toList, hslots] at hgaps
      obtain ⟨cs, rfl⟩ := exists_slotsOf none rest hgaps
      exact ⟨cs, by simp⟩
  · rintro ⟨hsize, cs, hslots⟩
    refine ⟨?_, ?_, Nat.le_of_lt_succ hsize⟩
    · simp [← Array.getElem?_toList, hslots]
    · simpa only [← Array.getElem?_toList, hslots] using gaps_slotsOf none cs rfl

theorem LaidOut.wellFormed_iff_texts {p : ConstantPool} (h : p.LaidOut) : p.WellFormed ↔
    ∀ text, some (.utf8 text) ∈ p.slots → (ModifiedUtf8.encode text).length ≤ 65535 :=
  ⟨WellFormed.texts, fun htexts => ⟨h, htexts⟩⟩

theorem mem_slots {p : ConstantPool} {cs : List Constant} (h : p.slots.toList = none :: slotsOf cs)
    {c : Constant} : some c ∈ p.slots ↔ c ∈ cs := by
  rw [Array.mem_def, h]
  simp [mem_slotsOf]

theorem wellFormed_iff {p : ConstantPool} : p.WellFormed ↔
    p.size < 2 ^ 16 ∧ ∃ cs, p.slots.toList = none :: slotsOf cs ∧ ∀ c ∈ cs, c.Fits := by
  constructor
  · intro h
    obtain ⟨hsize, cs, hslots⟩ := laidOut_iff.1 h.toLaidOut
    refine ⟨hsize, cs, hslots, fun c hc => ?_⟩
    cases c with
    | utf8 text => exact Nat.lt_succ_of_le (h.texts text ((mem_slots hslots).2 hc))
    | _ => trivial
  · rintro ⟨hsize, cs, hslots, hfits⟩
    refine (laidOut_iff.2 ⟨hsize, cs, hslots⟩).wellFormed_iff_texts.2 fun text htext => ?_
    have hlt := hfits (.utf8 text) ((mem_slots hslots).1 htext)
    exact Nat.le_of_lt_succ hlt

theorem form_write {p : ConstantPool} (h : p.WellFormed) : p.Form p.write := by
  obtain ⟨hsize, cs, hslots, hfits⟩ := wellFormed_iff.1 h
  exact ⟨hsize, cs, _, hslots, row_of_forall fun c hc => Constant.form_write (hfits c hc),
    write_eq hslots⟩

end ConstantPool

end ClassWeave
