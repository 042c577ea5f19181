import ClassWeave.Proofs.Bytes.Reading
import ClassWeave.Proofs.Text.ModifiedUtf8

/-!
# The sequences of modified UTF-8

A code unit is stored as a sequence of one to three bytes, and the lead byte of a sequence tells how
many there are.  The decoder looks at no more than that: of the bytes behind the lead byte it takes
the six low bits, whatever the two high ones are, and it does not ask whether a shorter sequence
would do.  So a code unit can be spelled in many ways, one of which is a sequence of the format.

* `ModifiedUtf8.IsSequence`, `ModifiedUtf8.IsWellFormed` : the sequences of the format, and runs of
  them.
* `ModifiedUtf8.decode_eq_ok_iff_spells` : which bytes are read as which text.
* `ModifiedUtf8.encode_eq_iff_isWellFormed` : a text that was read is stored in the same bytes just
  when they are well-formed.
* `ModifiedUtf8.readBack_encode` : a text is read back from its bytes, none of which is zero or
  above `0xEF`.
-/

namespace ClassWeave

namespace ModifiedUtf8

open Reader (Row)

/-! ### The sequences of the format -/

/-- A byte that continues a sequence: its two high bits are `10`. -/
def IsContinuation (b : UInt8) : Prop := 0x80 ≤ b.toNat ∧ b.toNat < 0xC0

/-- The sequences of the format.  No byte is zero, what is behind a lead byte continues it, and none
is longer than its code unit needs, except for that of the zero unit. -/
inductive IsSequence : Bytes → Prop
  /-- The units from `U+0001` to `U+007F`. -/
  | one {a : UInt8} : 0 < a.toNat ∧ a.toNat < 0x80 → IsSequence [a]
  /-- The zero unit. -/
  | zero : IsSequence [0xC0, 0x80]
  /-- The units from `U+0080` to `U+07FF`. -/
  | two {a b : UInt8} : 0xC2 ≤ a.toNat ∧ a.toNat < 0xE0 → IsContinuation b → IsSequence [a, b]
  /-- The units from `U+0800` on. -/
  | three {a b c : UInt8} : 0xE0 ≤ a.toNat ∧ a.toNat < 0xF0 → (a.toNat = 0xE0 → 0xA0 ≤ b.toNat) →
      IsContinuation b → IsContinuation c → IsSequence [a, b, c]

/-- Bytes that are sequences of the format in a row. -/
def IsWellFormed (bs : Bytes) : Prop :=
  ∃ sequences : List Bytes, (∀ s ∈ sequences, IsSequence s) ∧ bs = sequences.flatten

variable {u v : UInt16} {bs bs' s t : Bytes} {us : List UInt16} {text : String}

theorem Spells.ne_nil (h : Spells u s) : s ≠ [] := by
  cases h <;> simp

/-- A spelling ends where its lead byte says, so it is told apart from what follows it. -/
theorem Spells.eq_of_append (hs : Spells u s) (ht : Spells v t) (h : s ++ bs = t ++ bs') :
    s = t ∧ bs = bs' := by
  cases hs <;> cases ht <;>
    simp only [List.cons_append, List.nil_append, List.cons.injEq] at h ⊢
  -- the lead bytes are the same, so both spellings have as many bytes
  all_goals
    obtain ⟨rfl, h⟩ := h
    first
    | omega
    | simpa [and_assoc] using h

/-- The bytes that a code unit is stored in are a sequence of the format. -/
theorem isSequence_encodeUnit (u : UInt16) : IsSequence (encodeUnit u) := by
  have hu : u.toNat < 0x10000 := u.toNat_lt
  obtain ⟨a, h, ha, hlt⟩ | ⟨a, b, h, ha, hb, hzero | hle, hlt⟩ | ⟨a, b, c, h, ha, hb, hc, hle⟩ :=
    encodeUnit_cases u
  all_goals rw [h]
  · exact .one (by omega)
  · obtain rfl : a = 0xC0 := UInt8.toNat_inj.1 (by rw [ha, hzero]; rfl)
    obtain rfl : b = 0x80 := UInt8.toNat_inj.1 (by rw [hb, hzero]; rfl)
    exact .zero
  · exact .two (by omega) ⟨by omega, by omega⟩
  · exact .three (by omega) (by omega) ⟨by omega, by omega⟩ ⟨by omega, by omega⟩

/-- A code unit is spelled by one sequence of the format, the one that it is stored in. -/
theorem Spells.encodeUnit_eq (h : Spells u s) (hs : IsSequence s) : encodeUnit u = s := by
  cases h with
  | @one a _ hval =>
    obtain ⟨hpos, hlt⟩ : 0 < a.toNat ∧ a.toNat < 0x80 := by cases hs; assumption
    rw [encodeUnit, hval]
    simp only [hpos, hlt, and_self, if_true, UInt8.ofNat_toNat]
  | @two a b ha hval =>
    have hb : IsContinuation b ∧ (u.toNat = 0 ∨ 0x80 ≤ u.toNat) := by
      cases hs with
      | zero => exact ⟨⟨by decide, by decide⟩, .inl hval⟩
      | two ha' hb => exact ⟨hb, by omega⟩
    obtain ⟨⟨hle, hlt⟩, hrange⟩ := hb
    have hone : ¬ (0 < u.toNat ∧ u.toNat < 0x80) := by omega
    have htwo : u.toNat < 0x800 := by omega
    have hlead : 0xC0 + u.toNat / 64 = a.toNat := by omega
    have hnext : 0x80 + u.toNat % 64 = b.toNat := by omega
    rw [encodeUnit]
    simp only [hone, htwo, if_false, if_true, hlead, hnext, UInt8.ofNat_toNat]
  | @three a b c ha hval =>
    obtain ⟨⟨hble, hblt⟩, ⟨hcle, hclt⟩, hrange⟩ :
        IsContinuation b ∧ IsContinuation c ∧ (a.toNat = 0xE0 → 0xA0 ≤ b.toNat) := by
      cases hs with
      | three _ hrange hb hc => exact ⟨hb, hc, hrange⟩
    have hone : ¬ (0 < u.toNat ∧ u.toNat < 0x80) := by omega
    have htwo : ¬ u.toNat < 0x800 := by omega
    have hlead : 0xE0 + u.toNat / 4096 = a.toNat := by omega
    have hsecond : 0x80 + u.toNat / 64 % 64 = b.toNat := by omega
    have hthird : 0x80 + u.toNat % 64 = c.toNat := by omega
    rw [encodeUnit]
    simp only [hone, htwo, if_false, hlead, hsecond, hthird, UInt8.ofNat_toNat]

theorem IsSequence.exists_spells (h : IsSequence s) : ∃ u, Spells u s := by
  cases h with
  | @one a ha => exact ⟨.ofNat a.toNat, .one ha.2 (toNat_ofNat_half (by omega))⟩
  | zero => exact ⟨0, .two (by decide) (by decide)⟩
  | @two a b ha =>
    exact ⟨.ofNat (a.toNat % 32 * 64 + b.toNat % 64),
      .two (by omega) (toNat_ofNat_half (by omega))⟩
  | @three a b c ha =>
    exact ⟨.ofNat (a.toNat % 16 * 4096 + b.toNat % 64 * 64 + c.toNat % 64),
      .three ha (toNat_ofNat_half (by omega))⟩

/-- No byte of a sequence is zero or above `0xEF`. -/
theorem IsSequence.forall_mem (h : IsSequence s) : ∀ b ∈ s, b ≠ 0 ∧ b < 0xF0 := by
  simp only [ne_eq, ← UInt8.toNat_inj, UInt8.lt_iff_toNat_lt, UInt8.reduceToNat]
  cases h with
  | one ha =>
    simp only [List.forall_mem_singleton]
    omega
  | zero => exact List.forall_mem_cons.2 ⟨by decide, List.forall_mem_singleton.2 (by decide)⟩
  | two ha hb =>
    obtain ⟨hle, hlt⟩ := hb
    refine List.forall_mem_cons.2 ⟨?_, List.forall_mem_singleton.2 ?_⟩ <;> omega
  | three ha _ hb hc =>
    obtain ⟨hble, hblt⟩ := hb
    obtain ⟨hcle, hclt⟩ := hc
    refine List.forall_mem_cons.2
      ⟨?_, List.forall_mem_cons.2 ⟨?_, List.forall_mem_singleton.2 ?_⟩⟩ <;> omega

/-! ### Which bytes are read as which text -/

/-- The decoder takes spellings in a row. -/
theorem decodeUnits_eq_ok_iff : decodeUnits bs = .ok us ↔ Row Spells us bs := by
  constructor
  · intro h
    -- the induction follows the bytes of the first code unit
    fun_induction decodeUnits bs generalizing us with
    | case1 =>
      cases h
      rfl
    | case2 a rest hone ih =>
      obtain ⟨vs, hvs, rfl⟩ := except_map_eq_ok.1 h
      exact ⟨[a], rest, .one hone (UInt8.toNat_toUInt16 a), ih hvs, rfl⟩
    | case3 a hone htwo b rest ih =>
      obtain ⟨vs, hvs, rfl⟩ := except_map_eq_ok.1 h
      exact ⟨[a, b], rest, .two htwo (toNat_ofNat_half (by omega)), ih hvs, rfl⟩
    | case5 a hone htwo hthree b c rest ih =>
      obtain ⟨vs, hvs, rfl⟩ := except_map_eq_ok.1 h
      exact ⟨[a, b, c], rest, .three hthree (toNat_ofNat_half (by omega)), ih hvs, rfl⟩
    | case4 | case6 | case7 => cases h
  · intro h
    induction us generalizing bs with
    | nil =>
      obtain rfl := h
      simp [decodeUnits]
    | cons u us ih =>
      obtain ⟨front, back, hu, hus, rfl⟩ := h
      rw [decodeUnits_spells_append hu, ih hus]
      rfl

/-- **Which bytes are read as which text.**  Those that spell its code units, one after another. -/
theorem decode_eq_ok_iff_spells :
    decode bs = .ok text ↔ Row Spells (text.toList.flatMap CodeUnits.ofChar) bs := by
  rw [decode_eq_ok, decodeUnits_eq_ok_iff]

/-! ### Which of them are stored again -/

theorem isWellFormed_nil : IsWellFormed [] := ⟨[], by simp, rfl⟩

theorem isWellFormed_append (h : IsSequence s) (hbs : IsWellFormed bs) :
    IsWellFormed (s ++ bs) := by
  obtain ⟨sequences, hsequences, rfl⟩ := hbs
  exact ⟨s :: sequences, List.forall_mem_cons.2 ⟨h, hsequences⟩, rfl⟩

/-- Of bytes that begin with a spelling, the first sequence is that spelling. -/
theorem IsWellFormed.of_append (h : IsWellFormed (s ++ bs)) (hs : Spells u s) :
    IsSequence s ∧ IsWellFormed bs := by
  obtain ⟨sequences, hsequences, heq⟩ := h
  cases sequences with
  | nil => exact absurd (List.append_eq_nil_iff.1 heq).1 hs.ne_nil
  | cons t sequences =>
    rw [List.forall_mem_cons] at hsequences
    obtain ⟨v, ht⟩ := hsequences.1.exists_spells
    obtain ⟨rfl, rfl⟩ := hs.eq_of_append ht heq
    exact ⟨hsequences.1, sequences, hsequences.2, rfl⟩

/-- Code units are stored in the bytes that spell them just when these are well-formed. -/
theorem flatMap_encodeUnit_eq_iff (h : Row Spells us bs) :
    us.flatMap encodeUnit = bs ↔ IsWellFormed bs := by
  induction us generalizing bs with
  | nil =>
    obtain rfl := h
    exact ⟨fun _ => isWellFormed_nil, fun _ => rfl⟩
  | cons u us ih =>
    obtain ⟨front, back, hu, hus, rfl⟩ := h
    rw [List.flatMap_cons]
    constructor
    · intro heq
      obtain ⟨hfront, hback⟩ := (spells_encodeUnit u).eq_of_append hu heq
      exact isWellFormed_append (hfront ▸ isSequence_encodeUnit u) ((ih hus).1 hback)
    · intro hformed
      obtain ⟨hfront, hback⟩ := hformed.of_append hu
      rw [hu.encodeUnit_eq hfront, (ih hus).2 hback]

/-- A text that was read is stored in the same bytes just when they are well-formed. -/
theorem encode_eq_iff_isWellFormed (h : decode bs = .ok text) :
    encode text = bs ↔ IsWellFormed bs :=
  flatMap_encodeUnit_eq_iff (decode_eq_ok_iff_spells.1 h)

theorem isWellFormed_encode (text : String) : IsWellFormed (encode text) :=
  (encode_eq_iff_isWellFormed (decode_encode text)).1 rfl

theorem IsWellFormed.forall_mem (h : IsWellFormed bs) : ∀ b ∈ bs, b ≠ 0 ∧ b < 0xF0 := by
  obtain ⟨sequences, hsequences, rfl⟩ := h
  intro b hb
  obtain ⟨s, hs, hb⟩ := List.mem_flatten.1 hb
  exact (hsequences s hs).forall_mem b hb

/-- Bytes are canonical when they can be read and are well-formed. -/
theorem isCanonical_iff : IsCanonical bs ↔ (∃ text, decode bs = .ok text) ∧ IsWellFormed bs := by
  constructor
  · rintro ⟨text, hdecode, hencode⟩
    exact ⟨⟨text, hdecode⟩, (encode_eq_iff_isWellFormed hdecode).1 hencode⟩
  · rintro ⟨⟨text, hdecode⟩, hformed⟩
    exact ⟨text, hdecode, (encode_eq_iff_isWellFormed hdecode).2 hformed⟩

/-- **Decoding undoes encoding.**  Every text is read back from the bytes that it is stored in.
These are sequences of the format in a row, and no byte of them is zero or above `0xEF`. -/
theorem readBack_encode (text : String) :
    decode (encode text) = .ok text ∧ IsWellFormed (encode text) ∧
      ∀ b ∈ encode text, b ≠ 0 ∧ b < 0xF0 :=
  ⟨decode_encode text, isWellFormed_encode text, (isWellFormed_encode text).forall_mem⟩

end ModifiedUtf8

end ClassWeave
