import ClassWeave.Proofs.ClassFile.Codec

/-!
# Class files there and back

* `ClassFile.segments` : a class file as stretches of bytes: the texts in its pool, and all else.
* `ClassFile.write_read` : writing what was read gives the same bytes, with every text stored anew.
* `ClassFile.Readable` : the class files that keep to the limits of the format.
* `ClassFile.read_write` : reading what was written gives the same class file if it is readable,
  and does not otherwise.
-/

namespace ClassWeave

open Reader ModifiedUtf8

/-- A stretch of a class file. -/
inductive Segment where
  /-- Bytes that are kept as they are. -/
  | plain (bs : Bytes)
  /-- The bytes of a text, with their number in front. -/
  | text (payload : Bytes)

namespace Segment

/-- The bytes of a stretch. -/
def bytes : Segment → Bytes
  | plain bs => bs
  | text payload => bytesOfCount payload.length ++ payload

/-- The bytes of a stretch after a text in it was read and written. -/
def recoded : Segment → Bytes
  | plain bs => bs
  | text payload =>
    match decode payload with
    | .ok read => bytesOfCount (encode read).length ++ encode read
    | .error _ => bytesOfCount payload.length ++ payload

/-- The bytes of a text, if there is one in the stretch. -/
def payload? : Segment → Option Bytes
  | plain _ => none
  | text payload => some payload

/-- If there is a text in the stretch, it can be read, and its length is told. -/
def Readable : Segment → Prop
  | plain _ => True
  | text payload => payload.length < 2 ^ 16 ∧ ∃ text, decode payload = .ok text

/-- If there is a text in the stretch, its bytes are those that it is written to. -/
def Canonical : Segment → Prop
  | plain _ => True
  | text payload => IsCanonical payload

theorem recoded_eq_bytes {s : Segment} (h : s.Canonical) : s.recoded = s.bytes := by
  cases s with
  | plain => rfl
  | text payload =>
    obtain ⟨text, hdecode, hencode⟩ := h
    simp only [recoded, bytes, hdecode, hencode]

theorem canonical_of_append_eq {s : Segment} {front back : Bytes} (hs : s.Readable)
    (h : s.recoded ++ front = s.bytes ++ back) : s.Canonical := by
  cases s with
  | plain => trivial
  | text payload =>
    obtain ⟨hlen, text, hdecode⟩ := hs
    simp only [recoded, bytes, hdecode, List.append_assoc] at h
    -- the count tells the length modulo `2 ^ 16` only, so the text may be longer than the payload
    obtain ⟨hcount, h⟩ := List.append_inj h (by simp)
    have hmod : (encode text).length % 2 ^ 16 = payload.length := by
      have := congrArg BigEndian.decode hcount
      simp only [bytesOfCount, BigEndian.decode_encode] at this
      omega
    have hle : payload.length ≤ (encode text).length := hmod ▸ Nat.mod_le _ _
    obtain ⟨more, hmore⟩ : payload <+: encode text :=
      List.prefix_of_prefix_length_le ⟨back, rfl⟩ ⟨front, h⟩ hle
    obtain rfl := eq_nil_of_encode_append hdecode hmore.symm
    exact ⟨text, hdecode, by simpa using hmore.symm⟩

/-- **Where bytes change.**  Stretches in a row that are written to the bytes they were read from
are canonical, whatever follows them. -/
theorem canonical_of_flatMap_eq {ss : List Segment} {front back : Bytes}
    (hss : ∀ s ∈ ss, s.Readable)
    (h : ss.flatMap recoded ++ front = ss.flatMap bytes ++ back) : ∀ s ∈ ss, s.Canonical := by
  -- a canonical stretch cancels, which leaves the same question about the rest
  induction ss with
  | nil => simp
  | cons s ss ih =>
    rw [List.forall_mem_cons] at hss ⊢
    simp only [List.flatMap_cons, List.append_assoc] at h
    have hs := canonical_of_append_eq hss.1 h
    rw [recoded_eq_bytes hs, List.append_cancel_left_eq] at h
    exact ⟨hs, ih hss.2 h⟩

theorem flatMap_recoded_eq {ss : List Segment} (hss : ∀ s ∈ ss, s.Canonical) :
    ss.flatMap recoded = ss.flatMap bytes :=
  by rw [List.flatMap_def, List.flatMap_def,
    List.map_congr_left fun s hs => recoded_eq_bytes (hss s hs)]

end Segment

/-! ### The stretches of a pool -/

/-- How many bytes there are behind the tag of a constant that is no text. -/
def Constant.tailLength (tag : UInt8) : Nat :=
  match tag.toNat with
  | 7 | 8 | 16 | 19 | 20 => 2
  | 15 => 3
  | 5 | 6 => 8
  | _ => 4

/-- Whether the constant behind a tag takes two slots. -/
def Constant.isWideTag (tag : UInt8) : Bool := tag = 5 ∨ tag = 6

/-- The stretches of bytes that start with the constants of `n` slots. -/
def Segment.ofSlots (n : Nat) (data : Bytes) : List Segment :=
  match n, data with
  | 0, _ => [.plain data]
  | _ + 1, [] => []
  | n + 1, tag :: data =>
    if tag = 1 then
      let length := BigEndian.decode (data.take 2)
      .plain [tag] :: .text ((data.drop 2).take length) :: ofSlots n (data.drop (2 + length))
    else
      let length := Constant.tailLength tag
      .plain (tag :: data.take length) ::
        ofSlots (if Constant.isWideTag tag then n - 1 else n) (data.drop length)
  termination_by n
  decreasing_by all_goals (try split) <;> omega

namespace Segment

open ConstantPool (slotsOf)

theorem ofSlots_text {payload : Bytes} (h : payload.length < 2 ^ 16) (n : Nat) (rest : Bytes) :
    ofSlots (n + 1) (1 :: (bytesOfCount payload.length ++ payload) ++ rest) =
      .plain [1] :: .text payload :: ofSlots n rest := by
  have hdecode : BigEndian.decode (bytesOfCount payload.length) = payload.length := by
    rw [bytesOfCount, BigEndian.decode_encode]
    exact Nat.mod_eq_of_lt h
  have hcount : (bytesOfCount payload.length ++ payload ++ rest).take 2 =
      bytesOfCount payload.length := by
    rw [List.append_assoc]
    exact List.take_left' (length_bytesOfCount _)
  have hpayload : (bytesOfCount payload.length ++ payload ++ rest).drop 2 = payload ++ rest := by
    rw [List.append_assoc]
    exact List.drop_left' (length_bytesOfCount _)
  rw [List.cons_append, ofSlots, if_pos rfl]
  simp only [hcount, hdecode, ← List.drop_drop, hpayload, List.take_left, List.drop_left]

theorem ofSlots_plain {tag : UInt8} {tail : Bytes} (htag : tag ≠ 1)
    (htail : tail.length = Constant.tailLength tag) (n : Nat) (rest : Bytes) :
    ofSlots (n + 1) (tag :: tail ++ rest) =
      .plain (tag :: tail) :: ofSlots (if Constant.isWideTag tag then n - 1 else n) rest := by
  rw [List.cons_append, ofSlots, if_neg htag]
  simp only [← htail, List.take_left, List.drop_left]

/-- A constant that is no text is a tag and as many bytes as the tag announces. -/
theorem write_eq_cons {c : Constant} (h : ∀ text, c ≠ .utf8 text) : ∃ tag tail,
    c.write = tag :: tail ∧ tag ≠ 1 ∧ tail.length = Constant.tailLength tag ∧
      Constant.isWideTag tag = c.isWide := by
  cases c
  case utf8 text => exact absurd rfl (h text)
  all_goals exact ⟨_, _, rfl, by decide, by simp [Constant.tailLength], rfl⟩

theorem ofSlots_write {c : Constant} (h : ∀ text, c ≠ .utf8 text) (n : Nat) (rest : Bytes) :
    ofSlots (c.width + n) (c.write ++ rest) = .plain c.write :: ofSlots n rest := by
  obtain ⟨tag, tail, hwrite, htag, htail, hwide⟩ := write_eq_cons h
  rw [hwrite, Constant.width]
  split
  · rename_i h
    rw [show 2 + n = n + 1 + 1 by omega, ofSlots_plain htag htail, if_pos (hwide.trans h)]
    rfl
  · rename_i h
    rw [Nat.add_comm, ofSlots_plain htag htail, if_neg (by rwa [hwide])]

/-- The stretches of a constant and of what follows it. -/
theorem ofSlots_constant {c : Constant} {bs : Bytes} (h : c.Form bs) (n : Nat) (rest : Bytes) :
    ∃ ss, ofSlots (c.width + n) (bs ++ rest) = ss ++ ofSlots n rest ∧ ss.flatMap bytes = bs ∧
      ss.flatMap recoded = c.write ∧ (∀ s ∈ ss, s.Readable) ∧
      ((∀ s ∈ ss, s.Canonical) → c.Fits) := by
  cases c
  case utf8 text =>
    -- a text has two stretches, its tag and its bytes
    obtain ⟨payload, hdecode, hlen, rfl⟩ := h
    refine ⟨[.plain [1], .text payload], ?_, by simp [bytes], ?_, ?_, ?_⟩
    · rw [Constant.width, Nat.add_comm]
      exact ofSlots_text hlen n rest
    · simp [recoded, hdecode, Constant.write]
    · intro s hs
      simp only [List.mem_cons, List.not_mem_nil, or_false] at hs
      obtain rfl | rfl := hs
      · trivial
      · exact ⟨hlen, text, hdecode⟩
    · intro hcanonical
      obtain ⟨text', hdecode', hencode⟩ := hcanonical (.text payload) (by simp)
      rw [hdecode] at hdecode'
      cases hdecode'
      rwa [Constant.Fits, hencode]
  all_goals
    obtain rfl := h
    exact ⟨[.plain _], ofSlots_write (by simp) n rest, by simp [bytes], by simp [recoded],
      by simp [Readable], fun _ => trivial⟩

theorem length_slotsOf_cons (c : Constant) (cs : List Constant) :
    (slotsOf (c :: cs)).length = c.width + (slotsOf cs).length := by
  simp only [slotsOf, Constant.width]
  split <;> simp <;> omega

/-- The stretches of constants in a row and of what follows them. -/
theorem ofSlots_row {cs : List Constant} {row : Bytes} (h : Row Constant.Form cs row)
    (rest : Bytes) :
    ∃ ss, ofSlots (slotsOf cs).length (row ++ rest) = ss ++ [.plain rest] ∧ ss.flatMap bytes = row ∧
      ss.flatMap recoded = cs.flatMap Constant.write ∧ (∀ s ∈ ss, s.Readable) ∧
      ((∀ s ∈ ss, s.Canonical) → ∀ c ∈ cs, c.Fits) := by
  induction cs generalizing row with
  | nil =>
    obtain rfl := h
    exact ⟨[], by simp [slotsOf, ofSlots], by simp⟩
  | cons c cs ih =>
    obtain ⟨front, back, hc, hcs, rfl⟩ := h
    obtain ⟨ss, hss, hbytes, hrecoded, hreadable, hfits⟩ := ih hcs
    obtain ⟨ts, hts, hbytes', hrecoded', hreadable', hfits'⟩ :=
      ofSlots_constant hc (slotsOf cs).length (back ++ rest)
    -- the stretches of the first constant, then those of the others
    refine ⟨ts ++ ss, ?_, ?_, ?_, ?_, ?_⟩
    · rw [length_slotsOf_cons, List.append_assoc, hts, hss, List.append_assoc]
    · rw [List.flatMap_append, hbytes, hbytes']
    · rw [List.flatMap_append, hrecoded, hrecoded', List.flatMap_cons]
    · simpa only [List.forall_mem_append] using ⟨hreadable', hreadable⟩
    · rw [List.forall_mem_append, List.forall_mem_cons]
      exact fun h => ⟨hfits' h.1, hfits h.2⟩

end Segment

/-! ### Class files -/

namespace ClassFile

/-- The stretches of a class file: eight bytes and the count of slots in front of the pool, those
of the pool, and all that follows it. -/
def segments (b : Bytes) : List Segment :=
  .plain (b.take 10) :: Segment.ofSlots (BigEndian.decode ((b.drop 8).take 2) - 1) (b.drop 10)

/-- The bytes of the texts in the pool of a class file. -/
def textPayloads (b : Bytes) : List Bytes := (segments b).filterMap Segment.payload?

variable {versions : VersionRange} {u : ClassFile} {b : Bytes}

theorem segments_of_front {front count row back : Bytes} (hfront : front.length = 8)
    (hcount : count.length = 2) :
    segments (front ++ (count ++ row ++ back)) =
      .plain (front ++ count) :: Segment.ofSlots (BigEndian.decode count - 1) (row ++ back) := by
  have htake : (front ++ (count ++ row ++ back)).take 10 = front ++ count := by
    rw [List.append_assoc, ← List.append_assoc]
    exact List.take_left' (by simp [hfront, hcount])
  have hdrop : (front ++ (count ++ row ++ back)).drop 10 = row ++ back := by
    rw [List.append_assoc, ← List.append_assoc]
    exact List.drop_left' (by simp [hfront, hcount])
  rw [segments, htake, hdrop, List.drop_left' hfront, List.append_assoc, List.take_left' hcount]

/-- What reading and writing a class file does to its stretches. -/
theorem segments_of_read (h : read versions b = .ok u) :
    (segments b).flatMap Segment.bytes = b ∧
      u.write = .ok ((segments b).flatMap Segment.recoded) ∧ (∀ s ∈ segments b, s.Readable) ∧
      ((∀ s ∈ segments b, s.Canonical) → u.pool.WellFormed) := by
  obtain ⟨-, -, -, _, back, ⟨hsize, cs, row, hslots, hrow, rfl⟩, hback, rfl⟩ := read_eq_ok.1 h
  have hfront : u.front.length = 8 := by simp [front]
  have hmod : u.pool.size % 256 ^ 2 = u.pool.size := Nat.mod_eq_of_lt hsize
  have hcount : BigEndian.decode (bytesOfCount u.pool.size) - 1 =
      (ConstantPool.slotsOf cs).length := by
    rw [bytesOfCount, BigEndian.decode_encode, hmod, ConstantPool.size, ← Array.length_toList,
      hslots]
    rfl
  obtain ⟨ss, hss, hbytes, hrecoded, hreadable, hfits⟩ := Segment.ofSlots_row hrow back
  rw [segments_of_front hfront (length_bytesOfCount _), hcount, hss]
  refine ⟨?_, ?_, ?_, ?_⟩
  · simp [Segment.bytes, hbytes]
  · refine write_eq_ok.2 ⟨back, hback, ?_⟩
    simp [Segment.recoded, hrecoded, ConstantPool.write_eq hslots]
  · intro s hs
    simp only [List.mem_cons, List.mem_append, List.not_mem_nil, or_false] at hs
    obtain rfl | hs | rfl := hs
    · trivial
    · exact hreadable s hs
    · trivial
  · intro hcanonical
    refine ConstantPool.wellFormed_iff.2 ⟨hsize, cs, hslots, hfits fun s hs => ?_⟩
    exact hcanonical s (by simp [hs])

theorem canonical_iff_payloads :
    (∀ s ∈ segments b, s.Canonical) ↔ ∀ p ∈ textPayloads b, ModifiedUtf8.IsCanonical p := by
  simp only [textPayloads, List.mem_filterMap]
  constructor
  · rintro h p ⟨s, hs, hp⟩
    cases s with
    | plain => cases hp
    | text payload =>
      cases hp
      exact h _ hs
  · intro h s hs
    cases s with
    | plain => trivial
    | text payload => exact h payload ⟨_, hs, rfl⟩

theorem canonical_iff_flatMap (h : read versions b = .ok u) :
    (segments b).flatMap Segment.recoded = b ↔ ∀ s ∈ segments b, s.Canonical := by
  obtain ⟨hbytes, -, hreadable, -⟩ := segments_of_read h
  constructor
  · intro heq
    have hend : (segments b).flatMap Segment.recoded ++ [] =
        (segments b).flatMap Segment.bytes ++ [] := by rw [heq, hbytes]
    exact Segment.canonical_of_flatMap_eq hreadable hend
  · intro hcanonical
    rw [Segment.flatMap_recoded_eq hcanonical, hbytes]

/-- **Writing undoes reading, up to the texts.**  A class file that was read is written to the same
bytes, except that the texts in its pool are stored anew; so it is written to the bytes that it was
read from if and only if these store every text in the canonical way. -/
theorem write_read (h : read versions b = .ok u) :
    (segments b).flatMap Segment.bytes = b ∧ ∃ b', u.write = .ok b' ∧
      b' = (segments b).flatMap Segment.recoded ∧
      (b' = b ↔ ∀ p ∈ textPayloads b, ModifiedUtf8.IsCanonical p) := by
  obtain ⟨hbytes, hwrite, -, -⟩ := segments_of_read h
  refine ⟨hbytes, _, hwrite, rfl, ?_⟩
  rw [canonical_iff_flatMap h, canonical_iff_payloads]

/-- A class file without members, whose name is stored in two bytes where one would do, is read,
and is written to other bytes. -/
theorem write_read_overlong :
    let b : Bytes := [0xCA, 0xFE, 0xBA, 0xBE, 0, 0, 0, 52, 0, 3, 1, 0, 2, 0xC1, 0x81, 7, 0, 1,
      0, 0x21, 0, 2, 0, 0, 0, 0, 0, 0, 0, 0, 0, 0]
    let u : ClassFile :=
      { minor := 0, major := 52, pool := ⟨#[none, some (.utf8 "A"), some (.classInfo 1)]⟩,
        access := 0x21, thisClass := 2, superClass := 0, interfaces := [], fields := [],
        methods := [], attributes := [] }
    read {} b = .ok u ∧ textPayloads b = [[0xC1, 0x81]] ∧ ∃ b', u.write = .ok b' ∧ b' ≠ b := by
  intro b u
  have hread : read {} b = .ok u := by rfl
  have hpayloads : textPayloads b = [[0xC1, 0x81]] := by cbv
  obtain ⟨-, b', hwrite, -, hiff⟩ := write_read hread
  refine ⟨hread, hpayloads, b', hwrite, fun heq => ?_⟩
  obtain ⟨text, hdecode, hencode⟩ := hiff.1 heq [0xC1, 0x81] (by simp [hpayloads])
  have hA : ModifiedUtf8.decode [0xC1, 0x81] = .ok "A" := by rfl
  rw [hA] at hdecode
  cases hdecode
  exact absurd hencode (by decide)

/-- The class files that can be read back. -/
structure Readable (versions : VersionRange) (u : ClassFile) : Prop where
  /-- The version is accepted. -/
  version : versions.accepts u.major = true
  /-- The pool is one that can be stored. -/
  pool : u.pool.WellFormed
  /-- So are all attributes, which hold what their names select. -/
  attributes : u.AttributesFit
  /-- The names that reading asks for lead somewhere. -/
  names : u.Resolved

theorem read_of_readable (h : u.Readable versions) (hb : u.write = .ok b) :
    read versions b = .ok u := by
  obtain ⟨back, hback, rfl⟩ := write_eq_ok.1 hb
  exact read_eq_ok.2 ⟨h.version, h.attributes, h.names, _, back,
    ConstantPool.form_write h.pool, hback, rfl⟩

theorem readable_of_read (h : read versions b = .ok u) (hb : u.write = .ok b) :
    u.Readable versions := by
  obtain ⟨-, hwrite, -, hpool⟩ := segments_of_read h
  rw [hb] at hwrite
  have hcanonical := (canonical_iff_flatMap h).1 (Except.ok.inj hwrite).symm
  obtain ⟨hversion, hfits, hnames, -⟩ := read_eq_ok.1 h
  exact ⟨hversion, hpool hcanonical, hfits, hnames⟩

/-- **Reading undoes writing.**  The bytes of a class file are read as that class file if and only
if it is readable: its version is accepted, its pool and its attributes keep to the limits of the
format, and its names lead somewhere. -/
theorem read_write (hb : u.write = .ok b) :
    read versions b = .ok u ↔ u.Readable versions :=
  ⟨fun h => readable_of_read h hb, fun h => read_of_readable h hb⟩

/-! ### Method bodies inside of each other -/

theorem wellFormed_nestedBodies : nestedBodies.pool.WellFormed := by
  have htexts : ∀ text ∈ ["A", "java/lang/Object", "größe", "J", "ConstantValue", "m", "()V",
      "Code", "RuntimeInvisibleAnnotations", "LB;"],
        (ModifiedUtf8.encode text).length < 2 ^ 16 := by decide
  refine ConstantPool.wellFormed_iff.2 ⟨by decide, [.utf8 "A", .classInfo 1,
    .utf8 "java/lang/Object", .classInfo 3, .utf8 "größe", .utf8 "J", .utf8 "ConstantValue",
    .long 7, .utf8 "m", .utf8 "()V", .utf8 "Code", .utf8 "RuntimeInvisibleAnnotations",
    .utf8 "LB;"], rfl, ?_⟩
  simpa [Constant.Fits] using htexts

theorem attributesFit_nestedBodies : nestedBodies.AttributesFit := by
  have hvalue : (Attribute.raw 7 [0, 8]).Fits nestedBodies.pool :=
    .raw ⟨⟨"ConstantValue", rfl, by decide, by decide, by decide⟩, trivial⟩
  have hlist {as : List AnnotationInfo} (hcount : as.length < 2 ^ 16)
      (h : ∀ a ∈ as, AnnotationInfo.Fits a) :
        (Attribute.annotations 13 as).Fits nestedBodies.pool :=
    .annotations ⟨⟨"RuntimeInvisibleAnnotations", rfl, .inr rfl⟩, hcount, h⟩
  have hbody {body : Code} (hsized : body.Sized)
      (h : ∀ a ∈ body.attributes, a.Fits nestedBodies.pool) :
        (Attribute.code 12 body).Fits nestedBodies.pool :=
    .code ⟨⟨"Code", rfl, rfl⟩, hsized⟩ h
  have hmarker : AnnotationInfo.Fits ⟨14, []⟩ := ⟨by decide, nofun⟩
  have hnested : AnnotationInfo.Fits ⟨14, [(10, .array [.nested ⟨14, []⟩, .const 0x4A 8])]⟩ := by
    refine ⟨by decide, List.forall_mem_singleton.2 (.array (by decide) ?_)⟩
    refine List.forall_mem_cons.2 ⟨.nested (by decide) nofun, ?_⟩
    exact List.forall_mem_singleton.2 (.const rfl)
  refine ⟨List.forall_mem_singleton.2 (List.forall_mem_singleton.2 hvalue),
    List.forall_mem_singleton.2 (List.forall_mem_singleton.2 ?_),
    List.forall_mem_singleton.2 (hlist (by decide) (List.forall_mem_singleton.2 hmarker))⟩
  refine hbody ⟨by decide, by decide⟩ (List.forall_mem_singleton.2 ?_)
  refine hbody ⟨by decide, by decide⟩ (List.forall_mem_singleton.2 ?_)
  exact hlist (by decide) (List.forall_mem_singleton.2 hnested)

/-- That class is readable, and so it is read from what it is written to. -/
theorem read_write_nestedBodies :
    ∃ b, nestedBodies.write = .ok b ∧ nestedBodies.Readable {} ∧
      read {} b = .ok nestedBodies := by
  have hnames : nestedBodies.Resolved := by
    refine ⟨⟨"A", rfl⟩, fun _ => ⟨"java/lang/Object", rfl⟩, ?_, ?_⟩
    · exact List.forall_mem_singleton.2 ⟨⟨"größe", rfl⟩, "J", .long, rfl, rfl⟩
    · exact List.forall_mem_singleton.2 ⟨⟨"m", rfl⟩, "()V", rfl⟩
  have hreadable : nestedBodies.Readable {} :=
    ⟨by decide, wellFormed_nestedBodies, attributesFit_nestedBodies, hnames⟩
  obtain ⟨b, hb⟩ : ∃ b, nestedBodies.write = .ok b := ⟨_, rfl⟩
  exact ⟨b, hb, hreadable, (read_write hb).2 hreadable⟩

end ClassFile

end ClassWeave
