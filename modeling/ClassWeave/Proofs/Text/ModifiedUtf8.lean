import ClassWeave.Proofs.Except
import ClassWeave.Text.ModifiedUtf8

/-!
# Modified UTF-8 there and back

* `ModifiedUtf8.Spells` : the bytes that are taken for a code unit.
* `ModifiedUtf8.decode_encode` : every text is read back from its bytes.
* `ModifiedUtf8.eq_nil_of_encode_append` : the bytes of a text do not go on behind bytes that
  already stand for it, so the length of a text tells where it ends.
* `ModifiedUtf8.IsCanonical` : the bytes are those that the text they stand for is stored by.
-/

namespace ClassWeave

theorem toNat_ofNat_byte {n : Nat} (h : n < 256) : (UInt8.ofNat n).toNat = n :=
  UInt8.toNat_ofNat_of_lt' h

theorem toNat_ofNat_half {n : Nat} (h : n < 65536) : (UInt16.ofNat n).toNat = n :=
  UInt16.toNat_ofNat_of_lt' h

/-! ### Characters and UTF-16 code units -/

namespace CodeUnits

theorem isHigh_iff (u : UInt16) : isHigh u = true ↔ 0xD800 ≤ u.toNat ∧ u.toNat < 0xDC00 := by
  simp [isHigh, UInt16.le_iff_toNat_le, UInt16.lt_iff_toNat_lt]

theorem isLow_iff (u : UInt16) : isLow u = true ↔ 0xDC00 ≤ u.toNat ∧ u.toNat < 0xE000 := by
  simp [isLow, UInt16.le_iff_toNat_le, UInt16.lt_iff_toNat_lt]

theorem toChars_single {u : UInt16} {us : List UInt16} (h : u.toNat < 0xD800 ∨ 0xDFFF < u.toNat) :
    toChars (u :: us) = (Char.ofNat u.toNat :: ·) <$> toChars us := by
  have hhigh : ¬ isHigh u = true := by rw [isHigh_iff]; omega
  have hlow : ¬ isLow u = true := by rw [isLow_iff]; omega
  rw [toChars.eq_def]
  simp only [hhigh, hlow, Bool.false_eq_true, if_false]

theorem toChars_pair {u v : UInt16} {us : List UInt16} (hu : isHigh u = true)
    (hv : isLow v = true) : toChars (u :: v :: us) = (ofPair u v :: ·) <$> toChars us := by
  rw [toChars.eq_def]
  simp only [hu, hv, if_true]

theorem toChars_ofChar_append (c : Char) (us : List UInt16) :
    toChars (ofChar c ++ us) = (c :: ·) <$> toChars us := by
  have hc : c.toNat < 0xD800 ∨ 0xDFFF < c.toNat ∧ c.toNat < 0x110000 := c.valid
  unfold ofChar
  split
  · rename_i h
    have hn : (UInt16.ofNat c.toNat).toNat = c.toNat := toNat_ofNat_half h
    rw [List.singleton_append, toChars_single (by omega), hn, Char.ofNat_toNat]
  · rename_i h
    -- a character beyond the half words is two surrogates
    have hhi : (UInt16.ofNat (0xD800 + (c.toNat - 0x10000) / 0x400)).toNat =
        0xD800 + (c.toNat - 0x10000) / 0x400 := toNat_ofNat_half (by omega)
    have hlo : (UInt16.ofNat (0xDC00 + (c.toNat - 0x10000) % 0x400)).toNat =
        0xDC00 + (c.toNat - 0x10000) % 0x400 := toNat_ofNat_half (by omega)
    have hsum : 0x10000 + (0xD800 + (c.toNat - 0x10000) / 0x400 - 0xD800) * 0x400 +
        (0xDC00 + (c.toNat - 0x10000) % 0x400 - 0xDC00) = c.toNat := by omega
    rw [List.cons_append, List.singleton_append,
      toChars_pair (by rw [isHigh_iff, hhi]; omega) (by rw [isLow_iff, hlo]; omega), ofPair, hhi,
      hlo, hsum, Char.ofNat_toNat]

/-- The characters come back from their code units. -/
theorem toChars_flatMap_ofChar (cs : List Char) : toChars (cs.flatMap ofChar) = some cs := by
  induction cs with
  | nil => simp [toChars]
  | cons c cs ih =>
    rw [List.flatMap_cons, toChars_ofChar_append, ih]
    rfl

theorem toNat_charOfNat {n : Nat} (h : n.isValidChar) : (Char.ofNat n).toNat = n := by
  rw [Char.ofNat, dif_pos h]
  rfl

theorem ofChar_ofNat {u : UInt16} (hhigh : ¬ isHigh u = true) (hlow : ¬ isLow u = true) :
    ofChar (Char.ofNat u.toNat) = [u] := by
  have hu : u.toNat < 0x10000 := u.toNat_lt
  rw [isHigh_iff] at hhigh
  rw [isLow_iff] at hlow
  have hc : (Char.ofNat u.toNat).toNat = u.toNat :=
    toNat_charOfNat (by simp only [Nat.isValidChar]; omega)
  rw [ofChar, hc, if_pos hu, UInt16.ofNat_toNat]

theorem ofChar_ofPair {u v : UInt16} (hu : isHigh u = true) (hv : isLow v = true) :
    ofChar (ofPair u v) = [u, v] := by
  rw [isHigh_iff] at hu
  rw [isLow_iff] at hv
  have hc : (ofPair u v).toNat =
      0x10000 + (u.toNat - 0xD800) * 0x400 + (v.toNat - 0xDC00) :=
    toNat_charOfNat (by simp only [Nat.isValidChar]; omega)
  have hhi : 0xD800 + ((ofPair u v).toNat - 0x10000) / 0x400 = u.toNat := by omega
  have hlo : 0xDC00 + ((ofPair u v).toNat - 0x10000) % 0x400 = v.toNat := by omega
  rw [ofChar, if_neg (by omega), hhi, hlo, UInt16.ofNat_toNat, UInt16.ofNat_toNat]

/-- The code units come back from their characters. -/
theorem flatMap_ofChar_of_toChars {us : List UInt16} {cs : List Char}
    (h : toChars us = some cs) : cs.flatMap ofChar = us := by
  fun_induction toChars us generalizing cs with
  | case1 =>
    cases h
    rfl
  | case2 u hu v rest hv ih =>
    obtain ⟨ds, hds, rfl⟩ := Option.map_eq_some_iff.1 h
    rw [List.flatMap_cons, ih hds, ofChar_ofPair hu hv]
    rfl
  | case3 => cases h
  | case4 => cases h
  | case5 => cases h
  | case6 u rest hhigh hlow ih =>
    obtain ⟨ds, hds, rfl⟩ := Option.map_eq_some_iff.1 h
    rw [List.flatMap_cons, ih hds, ofChar_ofNat hhigh hlow]
    rfl

end CodeUnits

/-! ### Code units and bytes -/

namespace ModifiedUtf8

variable {a b c : UInt8} {bs : Bytes}

theorem decodeUnits_one (h : a.toNat < 0x80) :
    decodeUnits (a :: bs) = (a.toUInt16 :: ·) <$> decodeUnits bs := by
  have hone : a < 0x80 := h
  rw [decodeUnits.eq_def]
  simp only [hone, if_true]

theorem decodeUnits_two (h : 0xC0 ≤ a.toNat ∧ a.toNat < 0xE0) :
    decodeUnits (a :: b :: bs) =
      (UInt16.ofNat (a.toNat % 32 * 64 + b.toNat % 64) :: ·) <$> decodeUnits bs := by
  have hone : ¬ a < 0x80 := by
    simp only [UInt8.lt_iff_toNat_lt, UInt8.reduceToNat]
    omega
  have htwo : 0xC0 ≤ a ∧ a < 0xE0 := h
  rw [decodeUnits.eq_def]
  simp only [hone, htwo, if_false, if_true, and_self]

theorem decodeUnits_three (h : 0xE0 ≤ a.toNat ∧ a.toNat < 0xF0) :
    decodeUnits (a :: b :: c :: bs) =
      (UInt16.ofNat (a.toNat % 16 * 4096 + b.toNat % 64 * 64 + c.toNat % 64) :: ·) <$>
        decodeUnits bs := by
  have hone : ¬ a < 0x80 := by
    simp only [UInt8.lt_iff_toNat_lt, UInt8.reduceToNat]
    omega
  have htwo : ¬ (0xC0 ≤ a ∧ a < 0xE0) := by
    simp only [UInt8.le_iff_toNat_le, UInt8.lt_iff_toNat_lt, UInt8.reduceToNat]
    omega
  have hthree : 0xE0 ≤ a ∧ a < 0xF0 := h
  rw [decodeUnits.eq_def]
  simp only [hone, htwo, hthree, if_false, if_true, and_self]

/-- The bytes that are taken for a code unit.  The lead byte tells how many there are; the bytes
behind it give their six low bits. -/
inductive Spells : UInt16 → Bytes → Prop
  /-- One byte that is its own value. -/
  | one {u : UInt16} {a : UInt8} : a.toNat < 0x80 → u.toNat = a.toNat → Spells u [a]
  /-- A lead byte with five bits, and one byte. -/
  | two {u : UInt16} {a b : UInt8} : 0xC0 ≤ a.toNat ∧ a.toNat < 0xE0 →
      u.toNat = a.toNat % 32 * 64 + b.toNat % 64 → Spells u [a, b]
  /-- A lead byte with four bits, and two bytes. -/
  | three {u : UInt16} {a b c : UInt8} : 0xE0 ≤ a.toNat ∧ a.toNat < 0xF0 →
      u.toNat = a.toNat % 16 * 4096 + b.toNat % 64 * 64 + c.toNat % 64 → Spells u [a, b, c]

theorem decodeUnits_spells_append {u : UInt16} {s : Bytes} (h : Spells u s) (bs : Bytes) :
    decodeUnits (s ++ bs) = (u :: ·) <$> decodeUnits bs := by
  cases h with
  | @one a ha hval =>
    have hu : a.toUInt16 = u := UInt16.toNat_inj.1 (by rw [UInt8.toNat_toUInt16, hval])
    rw [List.singleton_append, decodeUnits_one ha, hu]
  | two ha hval =>
    simp only [List.cons_append, List.nil_append]
    rw [decodeUnits_two ha, ← hval, UInt16.ofNat_toNat]
  | three ha hval =>
    simp only [List.cons_append, List.nil_append]
    rw [decodeUnits_three ha, ← hval, UInt16.ofNat_toNat]

/-- A code unit is stored in one byte, in two or in three. -/
theorem encodeUnit_cases (u : UInt16) :
    (∃ a : UInt8, encodeUnit u = [a] ∧ a.toNat = u.toNat ∧ 0 < u.toNat ∧ u.toNat < 0x80) ∨
      (∃ a b : UInt8, encodeUnit u = [a, b] ∧ a.toNat = 0xC0 + u.toNat / 64 ∧
        b.toNat = 0x80 + u.toNat % 64 ∧ (u.toNat = 0 ∨ 0x80 ≤ u.toNat) ∧ u.toNat < 0x800) ∨
      ∃ a b c : UInt8, encodeUnit u = [a, b, c] ∧ a.toNat = 0xE0 + u.toNat / 4096 ∧
        b.toNat = 0x80 + u.toNat / 64 % 64 ∧ c.toNat = 0x80 + u.toNat % 64 ∧
        0x800 ≤ u.toNat := by
  have hu : u.toNat < 0x10000 := u.toNat_lt
  unfold encodeUnit
  simp only
  split
  · rename_i hone
    exact .inl ⟨_, rfl, toNat_ofNat_byte (by omega), hone⟩
  split
  · rename_i hone htwo
    exact .inr (.inl ⟨_, _, rfl, toNat_ofNat_byte (by omega), toNat_ofNat_byte (by omega),
      by omega, htwo⟩)
  · rename_i hone htwo
    exact .inr (.inr ⟨_, _, _, rfl, toNat_ofNat_byte (by omega), toNat_ofNat_byte (by omega),
      toNat_ofNat_byte (by omega), by omega⟩)

/-- The bytes that a code unit is stored in spell it. -/
theorem spells_encodeUnit (u : UInt16) : Spells u (encodeUnit u) := by
  have hu : u.toNat < 0x10000 := u.toNat_lt
  obtain ⟨a, h, ha, -, hlt⟩ | ⟨a, b, h, ha, hb, -, hlt⟩ | ⟨a, b, c, h, ha, hb, hc, -⟩ :=
    encodeUnit_cases u
  all_goals rw [h]
  · exact .one (by omega) ha.symm
  · exact .two (by omega) (by omega)
  · exact .three (by omega) (by omega)

theorem decodeUnits_encodeUnit_append (u : UInt16) (bs : Bytes) :
    decodeUnits (encodeUnit u ++ bs) = (u :: ·) <$> decodeUnits bs :=
  decodeUnits_spells_append (spells_encodeUnit u) bs

theorem decodeUnits_flatMap_encodeUnit (us : List UInt16) :
    decodeUnits (us.flatMap encodeUnit) = .ok us := by
  induction us with
  | nil => simp [decodeUnits]
  | cons u us ih =>
    rw [List.flatMap_cons, decodeUnits_encodeUnit_append, ih]
    rfl

/-- **Every text is read back from its bytes.** -/
theorem decode_encode (text : String) : decode (encode text) = .ok text := by
  simp only [decode, encode, decodeUnits_flatMap_encodeUnit, CodeUnits.toChars_flatMap_ofChar, bind,
    Except.bind, String.ofList_toList]

/-- Bytes that stand for code units end where a code unit ends. -/
theorem decodeUnits_append {bs bs' : Bytes} {us : List UInt16} (h : decodeUnits bs = .ok us) :
    decodeUnits (bs ++ bs') = (us ++ ·) <$> decodeUnits bs' := by
  -- the induction follows the bytes of the first code units; only complete ones were decoded
  fun_induction decodeUnits bs generalizing us with
  | case1 =>
    cases h
    simp
  | case2 a rest hone ih =>
    obtain ⟨vs, hvs, rfl⟩ := except_map_eq_ok.1 h
    rw [List.cons_append, decodeUnits_one hone, ih hvs]
    simp
  | case3 a hone htwo b rest ih =>
    obtain ⟨vs, hvs, rfl⟩ := except_map_eq_ok.1 h
    rw [List.cons_append, List.cons_append, decodeUnits_two htwo, ih hvs]
    simp
  | case4 => cases h
  | case5 a hone htwo hthree b c rest ih =>
    obtain ⟨vs, hvs, rfl⟩ := except_map_eq_ok.1 h
    rw [List.cons_append, List.cons_append, List.cons_append, decodeUnits_three hthree, ih hvs]
    simp
  | case6 => cases h
  | case7 => cases h

theorem eq_nil_of_decodeUnits {bs : Bytes} {us : List UInt16} (h : decodeUnits bs = .ok us)
    (hus : us = []) : bs = [] := by
  subst hus
  fun_induction decodeUnits bs with
  | case1 => rfl
  | case2 | case3 | case5 =>
    obtain ⟨us, -, hnil⟩ := except_map_eq_ok.1 h
    cases hnil
  | case4 | case6 | case7 => cases h

theorem decode_eq_ok {bs : Bytes} {text : String} :
    decode bs = .ok text ↔ decodeUnits bs = .ok (text.toList.flatMap CodeUnits.ofChar) := by
  rw [decode, except_bind_eq_ok]
  constructor
  · rintro ⟨us, hus, h⟩
    split at h
    · rename_i cs hcs
      cases h
      rw [hus, String.toList_ofList, CodeUnits.flatMap_ofChar_of_toChars hcs]
    · cases h
  · intro h
    refine ⟨_, h, ?_⟩
    simp only [CodeUnits.toChars_flatMap_ofChar, String.ofList_toList]

/-! ### Canonical bytes -/

/-- The bytes are those that the text they stand for is stored by. -/
def IsCanonical (bs : Bytes) : Prop := ∃ text, decode bs = .ok text ∧ encode text = bs

/-- The bytes of a text do not go on behind bytes that stand for all of it. -/
theorem eq_nil_of_encode_append {bs bs' : Bytes} {text : String} (h : decode bs = .ok text)
    (he : encode text = bs ++ bs') : bs' = [] := by
  have hbs := decode_eq_ok.1 h
  have hall : decodeUnits (bs ++ bs') = .ok (text.toList.flatMap CodeUnits.ofChar) := by
    rw [← he, encode, decodeUnits_flatMap_encodeUnit]
  rw [decodeUnits_append hbs, except_map_eq_ok] at hall
  obtain ⟨us, hus, heq⟩ := hall
  have hnil : us = [] := by simpa using heq
  exact eq_nil_of_decodeUnits hus hnil

end ModifiedUtf8

end ClassWeave
