import ClassWeave.Bytes.Reader

/-!
# What readers accept

A format is a relation between values and bytes: `form a bs` says that `bs` is a way to store `a`.
A reader decodes a format when it takes exactly the stored forms off the front of its bytes.

* `Reader.Decodes` : the reader and the format agree on all inputs of at most `n` bytes.  The bound
  is what makes readers with a limited depth fit in: every level of nesting takes a byte.
* `Reader.decodes_bind`, `Reader.decodes_tagged` : formats of readers in a row.
* `Reader.decodes_table`, `Reader.whole_eq_ok` : counted tables, and readers that use up their
  bytes.
-/

namespace ClassWeave

namespace BigEndian

theorem decode_lt (bs : Bytes) : decode bs < 256 ^ bs.length := by
  suffices h : ∀ rs : Bytes, decode rs.reverse < 256 ^ rs.length by simpa using h bs.reverse
  intro rs
  induction rs with
  | nil => simp
  | cons b rs ih =>
    have hb : b.toNat < 256 := b.toNat_lt
    simp only [List.reverse_cons, decode_append_singleton, List.length_cons, Nat.pow_succ]
    omega

end BigEndian

@[simp] theorem length_bytes16 (n : UInt16) : (bytes16 n).length = 2 := BigEndian.length_encode ..

@[simp] theorem length_bytes32 (n : UInt32) : (bytes32 n).length = 4 := BigEndian.length_encode ..

@[simp] theorem length_bytes64 (n : UInt64) : (bytes64 n).length = 8 := BigEndian.length_encode ..

@[simp] theorem length_bytesOfCount (n : Nat) : (bytesOfCount n).length = 2 :=
  BigEndian.length_encode ..

theorem bytesOfCount_toNat (n : UInt16) : bytesOfCount n.toNat = bytes16 n := rfl

theorem ofNat_decode_bytes16 (n : UInt16) : UInt16.ofNat (BigEndian.decode (bytes16 n)) = n := by
  have hmod : n.toNat % 256 ^ 2 = n.toNat := Nat.mod_eq_of_lt n.toNat_lt
  rw [bytes16, BigEndian.decode_encode, hmod, UInt16.ofNat_toNat]

namespace Reader

variable {α β : Type}

/-! ### Single steps -/

theorem bind_eq_ok {r : Reader α} {f : α → Reader β} {data rest : Bytes} {b : β} :
    (r >>= f) data = .ok (b, rest) ↔
      ∃ a mid, r data = .ok (a, mid) ∧ f a mid = .ok (b, rest) := by
  cases h : r data with
  | error cause => simp [bind, StateT.bind, Except.bind, h]
  | ok result =>
    obtain ⟨a, mid⟩ := result
    simp [bind, StateT.bind, Except.bind, h, and_assoc]

theorem pure_eq_ok {a b : α} {data rest : Bytes} :
    (pure a : Reader α) data = .ok (b, rest) ↔ b = a ∧ data = rest := by
  show Except.ok (a, data) = .ok (b, rest) ↔ _
  simp [eq_comm]

theorem map_eq_ok {r : Reader α} {f : α → β} {data rest : Bytes} {b : β} :
    (f <$> r) data = .ok (b, rest) ↔ ∃ a, r data = .ok (a, rest) ∧ b = f a := by
  rw [map_eq_pure_bind, bind_eq_ok]
  simp only [pure_eq_ok]
  constructor
  · rintro ⟨a, mid, h, rfl, rfl⟩
    exact ⟨a, h, rfl⟩
  · rintro ⟨a, h, rfl⟩
    exact ⟨a, rest, h, rfl, rfl⟩

theorem throw_ne_ok {cause : Malformation} {data rest : Bytes} {a : α} :
    ¬ (throw cause : Reader α) data = .ok (a, rest) := by
  simp [throw, throwThe, MonadExceptOf.throw, StateT.lift, bind, Except.bind]

theorem lift_eq_ok {e : Except Malformation α} {data rest : Bytes} {a : α} :
    (liftM e : Reader α) data = .ok (a, rest) ↔ e = .ok a ∧ data = rest := by
  cases e <;>
    simp [liftM, monadLift, MonadLift.monadLift, StateT.lift, bind, Except.bind, pure, Except.pure]

theorem bytes_eq_ok {n : Nat} {data bs rest : Bytes} :
    bytes n data = .ok (bs, rest) ↔ bs.length = n ∧ data = bs ++ rest := by
  constructor
  · intro h
    simp only [bytes] at h
    split at h
    · rename_i hn
      simp only [Except.ok.injEq, Prod.mk.injEq] at h
      obtain ⟨rfl, rfl⟩ := h
      exact ⟨hn, (List.take_append_drop n data).symm⟩
    · cases h
  · rintro ⟨rfl, rfl⟩
    exact bytes_append bs rest

theorem number_eq_ok {width n : Nat} {data rest : Bytes} :
    number width data = .ok (n, rest) ↔
      n < 256 ^ width ∧ data = BigEndian.encode width n ++ rest := by
  constructor
  · intro h
    obtain ⟨bs, mid, hbs, hn⟩ := bind_eq_ok.1 h
    obtain ⟨rfl, rfl⟩ := pure_eq_ok.1 hn
    obtain ⟨rfl, rfl⟩ := bytes_eq_ok.1 hbs
    exact ⟨BigEndian.decode_lt bs, by rw [BigEndian.encode_decode]⟩
  · rintro ⟨hn, rfl⟩
    rw [number_append, Nat.mod_eq_of_lt hn]

/-- A number of `width` bytes that is taken for an `α`, where `value` tells the numbers of all `α`s
apart. -/
theorem map_number_eq_ok {width : Nat} {make : Nat → α} {value : α → Nat} {a : α}
    {data rest : Bytes} (hlt : value a < 256 ^ width) (hmake : make (value a) = a)
    (hvalue : ∀ n < 256 ^ width, value (make n) = n) :
    (make <$> number width) data = .ok (a, rest) ↔
      data = BigEndian.encode width (value a) ++ rest := by
  rw [map_eq_ok]
  constructor
  · rintro ⟨n, h, rfl⟩
    obtain ⟨hn, rfl⟩ := number_eq_ok.1 h
    rw [hvalue n hn]
  · rintro rfl
    exact ⟨value a, number_eq_ok.2 ⟨hlt, rfl⟩, hmake.symm⟩

theorem u8_eq_ok {n : UInt8} {data rest : Bytes} :
    u8 data = .ok (n, rest) ↔ data = n :: rest := by
  have hform : BigEndian.encode 1 n.toNat = [n] := by simp [BigEndian.encode]
  rw [← List.singleton_append, ← hform]
  exact map_number_eq_ok n.toNat_lt UInt8.ofNat_toNat fun _ => UInt8.toNat_ofNat_of_lt'

theorem u16_eq_ok {n : UInt16} {data rest : Bytes} :
    u16 data = .ok (n, rest) ↔ data = bytes16 n ++ rest :=
  map_number_eq_ok n.toNat_lt UInt16.ofNat_toNat fun _ => UInt16.toNat_ofNat_of_lt'

theorem u32_eq_ok {n : UInt32} {data rest : Bytes} :
    u32 data = .ok (n, rest) ↔ data = bytes32 n ++ rest :=
  map_number_eq_ok n.toNat_lt UInt32.ofNat_toNat fun _ => UInt32.toNat_ofNat_of_lt'

theorem u64_eq_ok {n : UInt64} {data rest : Bytes} :
    u64 data = .ok (n, rest) ↔ data = bytes64 n ++ rest :=
  map_number_eq_ok n.toNat_lt UInt64.ofNat_toNat fun _ => UInt64.toNat_ofNat_of_lt'

/-! ### Formats -/

/-- On at most `n` bytes, the reader takes exactly the stored forms off the front. -/
def Decodes (n : Nat) (r : Reader α) (form : α → Bytes → Prop) : Prop :=
  ∀ data : Bytes, data.length ≤ n → ∀ a rest,
    r data = .ok (a, rest) ↔ ∃ bs, form a bs ∧ data = bs ++ rest

theorem Decodes.congr {n : Nat} {r : Reader α} {form form' : α → Bytes → Prop}
    (h : r.Decodes n form) (hf : ∀ a bs, form a bs ↔ form' a bs) : r.Decodes n form' := by
  intro data hn a rest
  simp only [h data hn a rest, hf]

theorem Decodes.mono {m n : Nat} {r : Reader α} {form : α → Bytes → Prop} (h : r.Decodes n form)
    (hm : m ≤ n) : r.Decodes m form :=
  fun data hdata => h data (Nat.le_trans hdata hm)

theorem decodes_pure (n : Nat) (a : α) :
    (pure a : Reader α).Decodes n fun b bs => b = a ∧ bs = [] := by
  intro data _ b rest
  rw [pure_eq_ok]
  constructor
  · rintro ⟨rfl, rfl⟩
    exact ⟨[], ⟨rfl, rfl⟩, rfl⟩
  · rintro ⟨bs, ⟨rfl, rfl⟩, rfl⟩
    exact ⟨rfl, rfl⟩

theorem decodes_throw (n : Nat) (cause : Malformation) :
    (throw cause : Reader α).Decodes n fun _ _ => False := by
  intro data _ a rest
  constructor
  · intro h
    exact (throw_ne_ok h).elim
  · rintro ⟨bs, ⟨⟩, -⟩

theorem decodes_ite {n : Nat} {p : Prop} [Decidable p] {r s : Reader α}
    {form form' : α → Bytes → Prop} (hr : p → r.Decodes n form) (hs : ¬ p → s.Decodes n form') :
    (if p then r else s).Decodes n fun a bs => if p then form a bs else form' a bs := by
  by_cases h : p
  · simpa only [if_pos h] using hr h
  · simpa only [if_neg h] using hs h

theorem decodes_u16 (n : Nat) : u16.Decodes n fun k bs => bs = bytes16 k := by
  intro data _ k rest
  simp [u16_eq_ok]

theorem decodes_u32 (n : Nat) : u32.Decodes n fun k bs => bs = bytes32 k := by
  intro data _ k rest
  simp [u32_eq_ok]

theorem decodes_bytes (n k : Nat) : (bytes k).Decodes n fun b bs => b.length = k ∧ bs = b := by
  intro data _ b rest
  simp [bytes_eq_ok, and_assoc]

/-- Readers in a row store their values in a row. -/
theorem decodes_bind {n : Nat} {r : Reader α} {f : α → Reader β} {form : α → Bytes → Prop}
    {forms : α → β → Bytes → Prop} (hr : r.Decodes n form) (hf : ∀ a, (f a).Decodes n (forms a)) :
    (r >>= f).Decodes n fun b bs =>
      ∃ a front back, form a front ∧ forms a b back ∧ bs = front ++ back := by
  intro data hn b rest
  rw [bind_eq_ok]
  constructor
  · rintro ⟨a, mid, ha, hb⟩
    obtain ⟨front, hfront, rfl⟩ := (hr data hn a mid).1 ha
    have hmid : mid.length ≤ n := by simp only [List.length_append] at hn; omega
    obtain ⟨back, hback, rfl⟩ := (hf a mid hmid b rest).1 hb
    exact ⟨front ++ back, ⟨a, front, back, hfront, hback, rfl⟩, by simp⟩
  · rintro ⟨_, ⟨a, front, back, hfront, hback, rfl⟩, rfl⟩
    have hmid : (back ++ rest).length ≤ n := by
      simp only [List.length_append] at hn ⊢
      omega
    exact ⟨a, back ++ rest, (hr _ hn a _).2 ⟨front, hfront, by simp⟩,
      (hf a _ hmid b rest).2 ⟨back, hback, rfl⟩⟩

theorem decodes_map {n : Nat} {r : Reader α} {form : α → Bytes → Prop} (hr : r.Decodes n form)
    (g : α → β) : (r >>= fun a => pure (g a)).Decodes n fun b bs => ∃ a, b = g a ∧ form a bs := by
  refine (decodes_bind hr fun a => decodes_pure n (g a)).congr fun b bs => ?_
  constructor
  · rintro ⟨a, front, _, hfront, ⟨rfl, rfl⟩, rfl⟩
    exact ⟨a, rfl, by rwa [List.append_nil]⟩
  · rintro ⟨a, rfl, h⟩
    exact ⟨a, bs, [], h, ⟨rfl, rfl⟩, by rw [List.append_nil]⟩

/-- A byte in front leaves one byte less to what follows it. -/
theorem decodes_tagged {n : Nat} {f : UInt8 → Reader β} {forms : UInt8 → β → Bytes → Prop}
    (hf : ∀ tag, (f tag).Decodes n (forms tag)) :
    (u8 >>= f).Decodes (n + 1) fun b bs => ∃ tag back, forms tag b back ∧ bs = tag :: back := by
  intro data hn b rest
  rw [bind_eq_ok]
  constructor
  · rintro ⟨tag, mid, ht, hb⟩
    obtain rfl := u8_eq_ok.1 ht
    obtain ⟨back, hback, rfl⟩ := (hf tag mid (by simpa using hn) b rest).1 hb
    exact ⟨tag :: back, ⟨tag, back, hback, rfl⟩, rfl⟩
  · rintro ⟨_, ⟨tag, back, hback, rfl⟩, rfl⟩
    exact ⟨tag, back ++ rest, u8_eq_ok.2 rfl,
      (hf tag _ (by simpa using hn) b rest).2 ⟨back, hback, rfl⟩⟩

/-! ### Tables -/

/-- The stored forms of values in a row. -/
def Row (form : α → Bytes → Prop) : List α → Bytes → Prop
  | [], bs => bs = []
  | a :: as, bs => ∃ front back, form a front ∧ Row form as back ∧ bs = front ++ back

/-- The stored form of a table: a count, and the rows. -/
def Table (form : α → Bytes → Prop) (as : List α) (bs : Bytes) : Prop :=
  as.length < 2 ^ 16 ∧ ∃ rows, Row form as rows ∧ bs = bytesOfCount as.length ++ rows

/-- Where there is one way to store a value, there is one way to store values in a row. -/
theorem row_iff {form : α → Bytes → Prop} {P : α → Prop} {write : α → Bytes}
    (h : ∀ a bs, form a bs ↔ P a ∧ bs = write a) (as : List α) (bs : Bytes) :
    Row form as bs ↔ (∀ a ∈ as, P a) ∧ bs = as.flatMap write := by
  induction as generalizing bs with
  | nil => simp [Row]
  | cons a as ih =>
    simp only [Row, h, ih, List.forall_mem_cons, List.flatMap_cons]
    constructor
    · rintro ⟨_, _, ⟨ha, rfl⟩, ⟨has, rfl⟩, rfl⟩
      exact ⟨⟨ha, has⟩, rfl⟩
    · rintro ⟨⟨ha, has⟩, rfl⟩
      exact ⟨_, _, ⟨ha, rfl⟩, ⟨has, rfl⟩, rfl⟩

section

variable {ε : Type} {P : α → Prop} {write : α → Except ε Bytes}
  {writeAll : List α → Except ε Bytes}
  (hcons : ∀ a as bs, writeAll (a :: as) = .ok bs ↔
    ∃ front, write a = .ok front ∧ ∃ back, writeAll as = .ok back ∧ bs = front ++ back)
  (hnil : writeAll [] = .ok [])
include hcons hnil

/-- The same where writing can fail, for values in a row and for a table. -/
theorem row_iff_writeAll {as : List α} {bs : Bytes} :
    Row (fun a bs => P a ∧ write a = .ok bs) as bs ↔
      (∀ a ∈ as, P a) ∧ writeAll as = .ok bs := by
  induction as generalizing bs with
  | nil => simp [Row, hnil, eq_comm]
  | cons a as ih =>
    simp only [Row, ih, hcons, List.forall_mem_cons]
    constructor
    · rintro ⟨front, back, ⟨ha, hfront⟩, ⟨has, hback⟩, rfl⟩
      exact ⟨⟨ha, has⟩, front, hfront, back, hback, rfl⟩
    · rintro ⟨⟨ha, has⟩, front, hfront, back, hback, rfl⟩
      exact ⟨front, back, ⟨ha, hfront⟩, ⟨has, hback⟩, rfl⟩

theorem table_iff_writeAll {as : List α} {bs : Bytes} :
    Table (fun a bs => P a ∧ write a = .ok bs) as bs ↔ (∀ a ∈ as, P a) ∧ as.length < 2 ^ 16 ∧
      ∃ rows, writeAll as = .ok rows ∧ bs = bytesOfCount as.length ++ rows := by
  simp only [Table, row_iff_writeAll hcons hnil]
  constructor
  · rintro ⟨hlen, rows, ⟨hP, hrows⟩, rfl⟩
    exact ⟨hP, hlen, rows, hrows, rfl⟩
  · rintro ⟨hP, hlen, rows, hrows, rfl⟩
    exact ⟨hlen, rows, ⟨hP, hrows⟩, rfl⟩

end

theorem row_of_forall {form : α → Bytes → Prop} {write : α → Bytes} {as : List α}
    (h : ∀ a ∈ as, form a (write a)) : Row form as (as.flatMap write) := by
  induction as with
  | nil => rfl
  | cons a as ih =>
    rw [List.forall_mem_cons] at h
    exact ⟨_, _, h.1, ih h.2, rfl⟩

theorem decodes_times {n : Nat} {item : Reader α} {form : α → Bytes → Prop}
    (h : item.Decodes n form) (k : Nat) :
    (times item k).Decodes n fun as bs => as.length = k ∧ Row form as bs := by
  induction k with
  | zero =>
    refine (decodes_pure n []).congr fun as bs => ?_
    cases as <;> simp [Row]
  | succ k ih =>
    refine (decodes_bind h fun a => decodes_map ih (a :: ·)).congr ?_
    intro as bs
    constructor
    · rintro ⟨a, front, back, hfront, ⟨as', rfl, rfl, hback⟩, rfl⟩
      exact ⟨rfl, front, back, hfront, hback, rfl⟩
    · rintro ⟨hlen, hrow⟩
      cases as with
      | nil => cases hlen
      | cons a as =>
        obtain ⟨front, back, hfront, hback, rfl⟩ := hrow
        exact ⟨a, front, back, hfront, ⟨as, rfl, by simpa using hlen, hback⟩, rfl⟩

theorem decodes_table {n : Nat} {item : Reader α} {form : α → Bytes → Prop}
    (h : item.Decodes n form) : (table item).Decodes n (Table form) := by
  refine (decodes_bind (decodes_u16 n) fun k => decodes_times h k.toNat).congr fun as bs => ?_
  constructor
  · rintro ⟨k, _, rows, rfl, ⟨hlen, hrows⟩, rfl⟩
    exact ⟨hlen ▸ k.toNat_lt, rows, hrows, by rw [hlen, bytesOfCount_toNat]⟩
  · rintro ⟨hlt, rows, hrows, rfl⟩
    have hk : (UInt16.ofNat as.length).toNat = as.length := UInt16.toNat_ofNat_of_lt' hlt
    exact ⟨.ofNat as.length, _, rows, rfl, ⟨hk.symm, hrows⟩, by rw [bytes16, hk, bytesOfCount]⟩

/-- A table of values that each are stored in one way is stored in one way. -/
theorem decodes_table_of_write {n : Nat} {item : Reader α} {P : α → Prop} {write : α → Bytes}
    (h : item.Decodes n fun a bs => P a ∧ bs = write a) :
    (table item).Decodes n fun as bs =>
      as.length < 2 ^ 16 ∧ (∀ a ∈ as, P a) ∧ bs = bytesOfCount as.length ++ as.flatMap write := by
  refine (decodes_table h).congr fun as bs => and_congr_right fun _ => ?_
  simp only [row_iff (fun _ _ => Iff.rfl), and_assoc]
  constructor
  · rintro ⟨_, hP, rfl, rfl⟩
    exact ⟨hP, rfl⟩
  · rintro ⟨hP, rfl⟩
    exact ⟨_, hP, rfl, rfl⟩

/-- A reader that has to use up its bytes accepts the stored forms and nothing else. -/
theorem whole_eq_ok {item : Reader α} {form : α → Bytes → Prop} {trailing : Bytes → Malformation}
    {data : Bytes} (h : item.Decodes data.length form) {a : α} :
    whole item trailing data = .ok a ↔ form a data := by
  have hitem : item data = .ok (a, []) ↔ form a data := by
    rw [h data (Nat.le_refl _) a []]
    simp
  rw [← hitem, whole]
  split
  · rename_i b heq
    simp [heq]
  · rename_i heq
    simp [heq]
  · rename_i heq
    simp [heq]

end Reader

end ClassWeave
