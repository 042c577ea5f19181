import ClassWeave.Proofs.ClassFile.RoundTrip
import ClassWeave.Proofs.Text.Sequences

/-!
# The texts of a class file

Reading accepts more than the format allows for a text: a zero byte, a sequence that is longer than
its code unit needs, and a byte that does not continue a sequence where one is due.  Such a text is
stored in other bytes when it is written, and so is the class file that it stands in.

* `ClassFile.writesBack_iff` : a text, and a class file, is written to the bytes that it was read
  from just when these are well-formed.
-/

namespace ClassWeave

open ModifiedUtf8 Reader

namespace ClassFile

variable {versions : VersionRange} {u : ClassFile} {b : Bytes}

/-- The texts of a class file that was read are canonical just when they are well-formed. -/
theorem canonical_iff_isWellFormed (h : read versions b = .ok u) :
    (∀ s ∈ segments b, s.Canonical) ↔ ∀ p ∈ textPayloads b, IsWellFormed p := by
  obtain ⟨-, -, hreadable, -⟩ := segments_of_read h
  rw [canonical_iff_payloads]
  refine forall₂_congr fun p hp => ?_
  obtain ⟨s, hs, hpayload⟩ := List.mem_filterMap.1 hp
  cases s with
  | plain => cases hpayload
  | text payload =>
    cases hpayload
    obtain ⟨-, hdecode⟩ := hreadable _ hs
    rw [isCanonical_iff, and_iff_right hdecode]

/-- **What is written back.**  The bytes that are read as a text are those that spell its code units
one after another, well-formed or not.  The text is stored in these bytes if and only if they are
well-formed, which just one way to spell it is.  A class file that was read can be written, and it
is written to the bytes that it was read from if and only if those of every text in its pool are
well-formed. -/
theorem writesBack_iff (p : Bytes) (text : String) (versions : VersionRange) (b : Bytes)
    (u : ClassFile) :
    (decode p = .ok text ↔ Row Spells (text.toList.flatMap CodeUnits.ofChar) p) ∧
      (decode p = .ok text → (encode text = p ↔ IsWellFormed p)) ∧
      (∃! q, decode q = .ok text ∧ IsWellFormed q) ∧
      (read versions b = .ok u →
        ∃ b', u.write = .ok b' ∧ (b' = b ↔ ∀ q ∈ textPayloads b, IsWellFormed q)) := by
  refine ⟨decode_eq_ok_iff_spells, encode_eq_iff_isWellFormed, ?_, fun h => ?_⟩
  · refine ⟨encode text, ⟨decode_encode text, isWellFormed_encode text⟩, ?_⟩
    rintro q ⟨hq, hformed⟩
    exact ((encode_eq_iff_isWellFormed hq).2 hformed).symm
  · obtain ⟨-, hwrite, -, -⟩ := segments_of_read h
    exact ⟨_, hwrite, by rw [canonical_iff_flatMap h, canonical_iff_isWellFormed h]⟩

/-- A raw zero byte, two bytes where one would do, and a byte that does not continue the sequence
are read, though none of them is well-formed.  A class file whose name is a raw zero byte is read,
and is written to other bytes. -/
theorem writesBack_iff_zero :
    let b : Bytes := [0xCA, 0xFE, 0xBA, 0xBE, 0, 0, 0, 52, 0, 3, 1, 0, 1, 0, 7, 0, 1,
      0, 0x21, 0, 2, 0, 0, 0, 0, 0, 0, 0, 0, 0, 0]
    let u : ClassFile :=
      { minor := 0, major := 52, pool := ⟨#[none, some (.utf8 "\x00"), some (.classInfo 1)]⟩,
        access := 0x21, thisClass := 2, superClass := 0, interfaces := [], fields := [],
        methods := [], attributes := [] }
    (decode [0] = .ok "\x00" ∧ ¬ IsWellFormed [0]) ∧
      (decode [0xC1, 0x81] = .ok "A" ∧ ¬ IsWellFormed [0xC1, 0x81]) ∧
      (decode [0xC3, 0x29] = .ok "é" ∧ ¬ IsWellFormed [0xC3, 0x29]) ∧
      read {} b = .ok u ∧ ∃ b', u.write = .ok b' ∧ b' ≠ b := by
  intro b u
  have hzero : decode [0] = .ok "\x00" := by rfl
  have hlong : decode [0xC1, 0x81] = .ok "A" := by rfl
  have hloose : decode [0xC3, 0x29] = .ok "é" := by rfl
  have hread : read {} b = .ok u := by rfl
  have hpayloads : textPayloads b = [[0]] := by cbv
  obtain ⟨-, hstored, -, hwritten⟩ := writesBack_iff [0] "\x00" {} b u
  have hnot : ¬ IsWellFormed [0] := fun h => absurd ((hstored hzero).2 h) (by decide)
  refine ⟨⟨hzero, hnot⟩, ⟨hlong, fun h => ?_⟩, ⟨hloose, fun h => ?_⟩, hread, ?_⟩
  · exact absurd (((writesBack_iff _ _ {} b u).2.1 hlong).2 h) (by decide)
  · exact absurd (((writesBack_iff _ _ {} b u).2.1 hloose).2 h) (by decide)
  · obtain ⟨b', hwrite, hiff⟩ := hwritten hread
    exact ⟨b', hwrite, fun heq => hnot (hiff.1 heq [0] (by simp [hpayloads]))⟩

end ClassFile

end ClassWeave
