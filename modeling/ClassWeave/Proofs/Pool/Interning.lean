import ClassWeave.Proofs.ClassFile.RoundTrip
import ClassWeave.Proofs.Pool.Growth
import Mathlib.Logic.Relation

/-!
# The pool as an interning table

Whatever is asked of a pool, and whether it is granted or not, the pool only ever takes constants
that it did not hold, one at a time, at its end.

* `ConstantPool.Adds`, `ConstantPool.Grows` : one constant more, and any number of them.
* `Interning.Request` : the calls that intern something; `Request.Answered` : what a slot must hold
  to answer one.
* `Interning.OnlyGrows` : computations that do nothing else; `Request.onlyGrows_act` : all requests
  are such.
* `ConstantPool.isTable_after` : the laws of the table, for every pool that requests can lead to.
* `ConstantPool.reader_write_iff_texts` : which of these pools are read back from their bytes.
-/

namespace ClassWeave

namespace ConstantPool

variable {p q r : ConstantPool} {c d : Constant} {i j : UInt16}

/-! ### Finding a constant -/

theorem get?_eq_some : p.get? i = some c ↔ p.slots[i.toNat]? = some (some c) := by
  rw [get?, Option.join_eq_some_iff]

theorem mem_slots_of_get? (h : p.get? i = some c) : some c ∈ p.slots :=
  Array.mem_of_getElem? (get?_eq_some.1 h)

/-- A constant in some slot is found, in this slot or one before it. -/
theorem exists_indexOf? (h : p.get? i = some c) : ∃ k, p.indexOf? c = some k ∧ k ≤ i := by
  obtain ⟨hi, hslot⟩ := Array.getElem?_eq_some_iff.1 (get?_eq_some.1 h)
  cases hfind : p.slots.findIdx? (holds c) with
  | none =>
    have hno := Array.findIdx?_eq_none_iff.1 hfind _ (Array.getElem_mem hi)
    rw [hslot] at hno
    simp [holds] at hno
  | some k =>
    obtain ⟨_, _, hbefore⟩ := Array.findIdx?_eq_some_iff_getElem.1 hfind
    have hki : k ≤ i.toNat := Nat.le_of_not_lt fun hlt => hbefore _ hlt (holds_iff.2 hslot)
    have hk : k < 2 ^ 16 := Nat.lt_of_le_of_lt hki i.toNat_lt
    refine ⟨UInt16.ofNat k, by simp only [indexOf?, hfind, if_pos hk], ?_⟩
    rwa [UInt16.le_iff_toNat_le, toNat_ofNat_half hk]

theorem indexOf?_eq_none : p.indexOf? c = none ↔ ∀ i, p.get? i ≠ some c := by
  constructor
  · intro hnone i hi
    obtain ⟨k, hk, -⟩ := exists_indexOf? hi
    rw [hnone] at hk
    cases hk
  · intro habsent
    cases hfind : p.indexOf? c with
    | none => rfl
    | some i => exact absurd (get?_of_indexOf? hfind) (habsent i)

/-- The slot that is found is the lowest. -/
theorem le_of_indexOf? (h : p.indexOf? c = some i) (hj : p.get? j = some c) : i ≤ j := by
  obtain ⟨k, hk, hkj⟩ := exists_indexOf? hj
  rw [h] at hk
  cases hk
  exact hkj

/-! ### Growing by one constant at a time -/

/-- The second pool is the first with one of the constants in question behind it, which it did not
hold and has room for. -/
def Adds (asked : Constant → Prop) (p q : ConstantPool) : Prop :=
  ∃ c, asked c ∧ (∀ i, p.get? i ≠ some c) ∧ p.size + c.width ≤ maxSlots ∧ q = p.push c

/-- The second pool is the first with any number of such constants behind it. -/
def Grows (asked : Constant → Prop) : ConstantPool → ConstantPool → Prop :=
  Relation.ReflTransGen (Adds asked)

/-- No two slots hold the same constant. -/
def HasNoRepeats (p : ConstantPool) : Prop :=
  ∀ i j c, p.get? i = some c → p.get? j = some c → i = j

variable {asked : Constant → Prop}

theorem Grows.mono {asked' : Constant → Prop} (h : Grows asked p q)
    (hasked : ∀ c, asked c → asked' c) : Grows asked' p q :=
  Relation.ReflTransGen.mono (fun _ _ ⟨c, hc, hadds⟩ => ⟨c, hasked c hc, hadds⟩) _ _ h

theorem Grows.extends (h : Grows asked p q) : p.Extends q := by
  induction h with
  | refl => exact .refl p
  | tail _ hadds ih =>
    obtain ⟨c, -, -, hroom, rfl⟩ := hadds
    exact ih.trans (extends_push hroom)

/-- A constant that was not there before is one of those in question. -/
theorem Grows.mem (h : Grows asked p q) (hc : some c ∈ q.slots) : some c ∈ p.slots ∨ asked c := by
  induction h with
  | refl => exact .inl hc
  | tail _ hadds ih =>
    obtain ⟨d, hd, -, -, rfl⟩ := hadds
    rw [Array.mem_def, push_slots, List.mem_append, mem_slotsOf, List.mem_singleton] at hc
    obtain hc | rfl := hc
    · exact ih (Array.mem_def.2 hc)
    · exact .inr hd

theorem get?_of_push (h : (p.push d).get? i = some c) :
    p.get? i = some c ∨ i.toNat = p.size ∧ c = d := by
  rw [get?_eq_some] at h
  rw [get?_eq_some]
  unfold push at h
  -- behind a wide constant there is an empty slot, which holds nothing
  split at h <;> simp only [Array.getElem?_push, Array.size_push] at h <;> grind [size]

theorem HasNoRepeats.push (h : p.HasNoRepeats) (habsent : ∀ i, p.get? i ≠ some c) :
    (p.push c).HasNoRepeats := by
  intro i j d hi hj
  obtain hi' | ⟨hi', rfl⟩ := get?_of_push hi
  · obtain hj' | ⟨-, rfl⟩ := get?_of_push hj
    · exact h i j d hi' hj'
    · exact absurd hi' (habsent i)
  · obtain hj' | ⟨hj', -⟩ := get?_of_push hj
    · exact absurd hj' (habsent j)
    · exact UInt16.toNat_inj.1 (hi'.trans hj'.symm)

theorem Grows.hasNoRepeats (h : Grows asked p q) (hp : p.HasNoRepeats) : q.HasNoRepeats := by
  induction h with
  | refl => exact hp
  | tail _ hadds ih =>
    obtain ⟨c, -, habsent, -, rfl⟩ := hadds
    exact ih.push habsent

theorem hasNoRepeats_empty : empty.HasNoRepeats := by
  intro i j c hi
  have hmem := mem_slots_of_get? hi
  simp [empty] at hmem

theorem Extends.laidOut (h : p.Extends q) (hp : p.LaidOut) : q.LaidOut := by
  obtain ⟨-, cs, hcs⟩ := laidOut_iff.1 hp
  obtain ⟨ds, hds⟩ := h.slots
  refine laidOut_iff.2 ⟨Nat.lt_succ_of_le (h.size_le hp.size_le), cs ++ ds, ?_⟩
  rw [hds, hcs, List.cons_append, slotsOf_append]

theorem laidOut_empty : empty.LaidOut :=
  laidOut_iff.2 ⟨by decide, [], rfl⟩

theorem laidOut_of_reader {data rest : Bytes} (h : reader data = .ok (p, rest)) : p.LaidOut := by
  obtain ⟨_, ⟨hsize, cs, _, hslots, -, -⟩, -⟩ := (decodes_reader _ data (Nat.le_refl _) p rest).1 h
  exact laidOut_iff.2 ⟨hsize, cs, hslots⟩

end ConstantPool

/-! ### Computations that let the pool grow -/

namespace Interning

open ConstantPool (Grows)

variable {α β : Type} {asked : Constant → Prop}

/-- Whatever becomes of the computation, the pool has grown by constants in question. -/
def OnlyGrows (asked : Constant → Prop) (act : Interning α) : Prop :=
  ∀ p, Grows asked p (Id.run (act.run p)).2

theorem onlyGrows_constant {c : Constant} (h : asked c) : OnlyGrows asked (constant c) := by
  intro p
  show Grows asked p (p.insert c).2
  obtain ⟨_, -, hp⟩ | ⟨habsent, hroom, hp⟩ | ⟨-, -, hp⟩ := ConstantPool.insert_cases p c
  all_goals rw [hp]
  · exact .refl
  · exact .single ⟨c, h, ConstantPool.indexOf?_eq_none.1 habsent, hroom, rfl⟩
  · exact .refl

theorem onlyGrows_bind {act : Interning α} {f : α → Interning β} (h : OnlyGrows asked act)
    (hf : ∀ a, OnlyGrows asked (f a)) : OnlyGrows asked (act >>= f) := by
  intro p
  have hp := h p
  have hrun : Id.run ((act >>= f).run p) =
      match Id.run (act.run p) with
      | (r, q) => Id.run (ExceptT.bindCont f r q) := rfl
  rw [hrun]
  generalize Id.run (act.run p) = found at hp ⊢
  obtain ⟨_ | a, q⟩ := found
  · exact hp
  · exact Relation.ReflTransGen.trans hp (hf a q)

variable {name descriptor : String}

theorem onlyGrows_classRef (hother : ∀ c, (∀ text, c ≠ .utf8 text) → asked c)
    (hname : asked (.utf8 name)) : OnlyGrows asked (classRef name) :=
  onlyGrows_bind (onlyGrows_constant hname) fun _ => onlyGrows_constant (hother _ nofun)

theorem onlyGrows_nameAndType (hother : ∀ c, (∀ text, c ≠ .utf8 text) → asked c)
    (hname : asked (.utf8 name)) (hdescriptor : asked (.utf8 descriptor)) :
    OnlyGrows asked (nameAndType name descriptor) :=
  onlyGrows_bind (onlyGrows_constant hname) fun _ =>
    onlyGrows_bind (onlyGrows_constant hdescriptor) fun _ => onlyGrows_constant (hother _ nofun)

/-- The calls for a field and for a method differ in the constant at the end only. -/
theorem onlyGrows_member {owner : String} {ref : UInt16 → UInt16 → Constant}
    (hother : ∀ c, (∀ text, c ≠ .utf8 text) → asked c) (href : ∀ o nt text, ref o nt ≠ .utf8 text)
    (howner : asked (.utf8 owner)) (hname : asked (.utf8 name))
    (hdescriptor : asked (.utf8 descriptor)) :
    OnlyGrows asked (do constant (ref (← classRef owner) (← nameAndType name descriptor))) :=
  onlyGrows_bind (onlyGrows_classRef hother howner) fun _ =>
    onlyGrows_bind (onlyGrows_nameAndType hother hname hdescriptor) fun _ =>
      onlyGrows_constant (hother _ (href _ _))

/-! ### Requests -/

/-- A call that interns something. -/
inductive Request where
  | constant (c : Constant)
  | utf8 (text : String)
  | integer (value : Int32)
  | classRef (name : String)
  | nameAndType (name descriptor : String)
  | fieldRef (owner name descriptor : String)
  | methodRef (owner name descriptor : String)

namespace Request

open ConstantPool (Grows)

/-- What the call does. -/
def act : Request → Interning UInt16
  | constant c => Interning.constant c
  | utf8 text => Interning.utf8 text
  | integer value => Interning.integer value
  | classRef name => Interning.classRef name
  | nameAndType name descriptor => Interning.nameAndType name descriptor
  | fieldRef owner name descriptor => Interning.fieldRef owner name descriptor
  | methodRef owner name descriptor => Interning.methodRef owner name descriptor

/-- What the call gives on a pool, and the pool that it leaves. -/
def run (request : Request) (p : ConstantPool) : Except Malformation UInt16 × ConstantPool :=
  Id.run (request.act.run p)

/-- The texts that are passed. -/
def texts : Request → List String
  | constant (.utf8 text) => [text]
  | constant _ => []
  | utf8 text => [text]
  | integer _ => []
  | classRef name => [name]
  | nameAndType name descriptor => [name, descriptor]
  | fieldRef owner name descriptor => [owner, name, descriptor]
  | methodRef owner name descriptor => [owner, name, descriptor]

/-- The slot holds the constant that was asked for, and leads to the texts that were passed. -/
def Answered (p : ConstantPool) (i : UInt16) : Request → Prop
  | constant c => p.get i = .ok c
  | utf8 text => p.get i = .ok (.utf8 text)
  | integer value => p.get i = .ok (.integer value)
  | classRef name => (∃ n, p.get i = .ok (.classInfo n)) ∧ p.className i = .ok name
  | nameAndType name descriptor =>
    (∃ n d, p.get i = .ok (.nameAndType n d)) ∧ p.nameAndType i = .ok (name, descriptor)
  | fieldRef owner name descriptor =>
    (∃ o nt, p.get i = .ok (.fieldRef o nt)) ∧ p.memberRef i = .ok { owner, name, descriptor }
  | methodRef owner name descriptor =>
    (∃ o nt, p.get i = .ok (.methodRef o nt)) ∧ p.memberRef i = .ok { owner, name, descriptor }

/-- If the constant is a text, it was passed. -/
def Asks (request : Request) (c : Constant) : Prop :=
  ∀ text, c = .utf8 text → text ∈ request.texts

variable {request : Request} {p q : ConstantPool} {i : UInt16}

/-- **A request only lets the pool grow**, by texts that were passed and by constants that are no
texts. -/
theorem onlyGrows_act (request : Request) : Interning.OnlyGrows request.Asks request.act := by
  have hother (c : Constant) (hc : ∀ text, c ≠ .utf8 text) : request.Asks c :=
    fun text htext => absurd htext (hc text)
  have htext {text : String} (ht : text ∈ request.texts) : request.Asks (.utf8 text) := by
    rintro _ ⟨⟩
    exact ht
  cases request with
  | constant c =>
    refine Interning.onlyGrows_constant ?_
    rintro text rfl
    exact List.mem_singleton_self text
  | utf8 => exact Interning.onlyGrows_constant (htext (by simp [texts]))
  | integer => exact Interning.onlyGrows_constant (hother _ nofun)
  | classRef => exact Interning.onlyGrows_classRef hother (htext (by simp [texts]))
  | nameAndType =>
    exact Interning.onlyGrows_nameAndType hother (htext (by simp [texts])) (htext (by simp [texts]))
  | fieldRef | methodRef =>
    exact Interning.onlyGrows_member hother nofun (htext (by simp [texts]))
      (htext (by simp [texts])) (htext (by simp [texts]))

theorem Answered.mono (h : request.Answered p i) (hpq : p.Extends q) : request.Answered q i := by
  have hget {c : Constant} (hc : p.get i = .ok c) : q.get i = .ok c :=
    ConstantPool.get_eq_ok.2 (hpq.get? (ConstantPool.get_eq_ok.1 hc))
  cases request with
  | constant | utf8 | integer => exact hget h
  | classRef =>
    obtain ⟨⟨n, hc⟩, hname⟩ := h
    exact ⟨⟨n, hget hc⟩, hpq.className hname⟩
  | nameAndType =>
    obtain ⟨⟨n, d, hc⟩, htexts⟩ := h
    exact ⟨⟨n, d, hget hc⟩, hpq.nameAndType htexts⟩
  | fieldRef | methodRef =>
    obtain ⟨⟨o, nt, hc⟩, hmember⟩ := h
    exact ⟨⟨o, nt, hget hc⟩, hpq.memberRef hmember⟩

/-- **A request that is granted is answered.** -/
theorem answered_of_run (h : request.run p = (.ok i, q)) : request.Answered q i := by
  cases request with
  | constant c => exact ConstantPool.get_eq_ok.2 (Interning.gives_constant h).2
  | utf8 text => exact ConstantPool.get_eq_ok.2 (Interning.gives_constant h).2
  | integer value => exact ConstantPool.get_eq_ok.2 (Interning.gives_constant h).2
  | classRef name =>
    have hname := (Interning.gives_classRef h).2
    obtain ⟨n, hc, -⟩ := ConstantPool.className_eq_ok.1 hname
    exact ⟨⟨n, ConstantPool.get_eq_ok.2 hc⟩, hname⟩
  | nameAndType name descriptor =>
    have htexts := (Interning.gives_nameAndType h).2
    obtain ⟨n, d, hc, -, -⟩ := ConstantPool.nameAndType_eq_ok.1 htexts
    exact ⟨⟨n, d, ConstantPool.get_eq_ok.2 hc⟩, htexts⟩
  | fieldRef owner name descriptor =>
    have hfield := (Interning.gives_fieldRef h).2
    obtain ⟨c, o, nt, hc, hslots, -⟩ := ConstantPool.refAt?_eq_some.1 hfield
    obtain rfl := Constant.field?_eq_some.1 hslots
    exact ⟨⟨o, nt, ConstantPool.get_eq_ok.2 hc⟩,
      ConstantPool.memberRef_of_refAt? (.inl rfl) hfield⟩
  | methodRef owner name descriptor =>
    have hmethod := (Interning.gives_methodRef h).2
    obtain ⟨c, o, nt, hc, hslots, -⟩ := ConstantPool.refAt?_eq_some.1 hmethod
    obtain rfl := Constant.method?_eq_some.1 hslots
    exact ⟨⟨o, nt, ConstantPool.get_eq_ok.2 hc⟩,
      ConstantPool.memberRef_of_refAt? (.inr rfl) hmethod⟩

/-- The texts that were passed are in the pool. -/
theorem Answered.mem_slots (h : request.Answered p i) {text : String} (ht : text ∈ request.texts) :
    some (.utf8 text) ∈ p.slots := by
  have hutf8 {k : UInt16} {t : String} (hk : p.utf8 k = .ok t) : some (.utf8 t) ∈ p.slots :=
    ConstantPool.mem_slots_of_get? (ConstantPool.utf8_eq_ok.1 hk)
  have hpair {k : UInt16} {n d : String} (hk : p.nameAndType k = .ok (n, d)) :
      some (.utf8 n) ∈ p.slots ∧ some (.utf8 d) ∈ p.slots := by
    obtain ⟨_, _, -, hn, hd⟩ := ConstantPool.nameAndType_eq_ok.1 hk
    exact ⟨hutf8 hn, hutf8 hd⟩
  have hclass {k : UInt16} {n : String} (hk : p.className k = .ok n) :
      some (.utf8 n) ∈ p.slots := by
    obtain ⟨_, -, hn⟩ := ConstantPool.className_eq_ok.1 hk
    exact hutf8 hn
  cases request with
  | constant c =>
    cases c with
    | utf8 t =>
      obtain rfl := List.mem_singleton.1 ht
      exact ConstantPool.mem_slots_of_get? (ConstantPool.get_eq_ok.1 h)
    | _ => cases ht
  | utf8 t =>
    obtain rfl := List.mem_singleton.1 ht
    exact ConstantPool.mem_slots_of_get? (ConstantPool.get_eq_ok.1 h)
  | integer => cases ht
  | classRef name =>
    obtain rfl := List.mem_singleton.1 ht
    exact hclass h.2
  | nameAndType name descriptor =>
    obtain ⟨hn, hd⟩ := hpair h.2
    simp only [texts, List.mem_cons, List.not_mem_nil, or_false] at ht
    obtain rfl | rfl := ht
    · exact hn
    · exact hd
  | fieldRef owner name descriptor | methodRef owner name descriptor =>
    obtain ⟨_, o, nt, -, -, hmember⟩ := ConstantPool.memberRef_eq_ok.1 h.2
    obtain ⟨ho, hnt⟩ := ConstantPool.member_eq_ok.1 hmember
    obtain ⟨hn, hd⟩ := hpair hnt
    simp only [texts, List.mem_cons, List.not_mem_nil, or_false] at ht
    obtain rfl | rfl | rfl := ht
    · exact hclass ho
    · exact hn
    · exact hd

end Request

end Interning

/-! ### The laws of the table -/

namespace ConstantPool

open Interning (Request)

variable {p q : ConstantPool} {c : Constant} {i : UInt16} {requests : List Request}

/-- The pool after requests in a row, of which some may fail. -/
def after (p : ConstantPool) (requests : List Request) : ConstantPool :=
  requests.foldl (fun q request => (request.run q).2) p

/-- A pool only grows under requests. -/
theorem grows_after (p : ConstantPool) (requests : List Request) :
    Grows (fun _ => True) p (p.after requests) := by
  induction requests generalizing p with
  | nil => exact .refl
  | cons request requests ih =>
    have hrun : Grows request.Asks p (request.run p).2 := request.onlyGrows_act p
    exact Relation.ReflTransGen.trans (hrun.mono fun _ _ => trivial) (ih _)

/-- A constant that is there is found in its lowest slot, and nothing changes. -/
theorem insert_of_get? (h : p.get? i = some c) : ∃ k, p.insert c = (.ok k, p) ∧
    p.get? k = some c ∧ ∀ j, p.get? j = some c → k ≤ j := by
  obtain ⟨k, hk, -⟩ := exists_indexOf? h
  exact ⟨k, by simp only [insert, hk], get?_of_indexOf? hk, fun j hj => le_of_indexOf? hk hj⟩

/-- Interning a constant fails for want of room only, and then nothing changes. -/
theorem insert_eq_error {e : Malformation} : p.insert c = (.error e, q) ↔
    (∀ i, p.get? i ≠ some c) ∧ maxSlots < p.size + c.width ∧ e = .poolOverflow ∧ q = p := by
  obtain ⟨k, hk, hp⟩ | ⟨-, hroom, hp⟩ | ⟨habsent, hfull, hp⟩ := insert_cases p c
  all_goals
    rw [hp]
    simp only [Prod.mk.injEq, reduceCtorEq, false_and, false_iff, not_and]
  · exact fun habsent => absurd (get?_of_indexOf? hk) (habsent k)
  · exact fun _ hfull => absurd hroom (Nat.not_le_of_lt hfull)
  · simp only [Except.error.injEq, eq_comm (a := e), eq_comm (a := q)]
    exact ⟨fun h => ⟨indexOf?_eq_none.1 habsent, hfull, h⟩, fun h => h.2.2⟩

/-- The laws of an interning table. -/
structure IsTable (p : ConstantPool) : Prop where
  /-- Slot 0 is empty, as is the slot after each wide constant, and no other; there are at most
  65535 slots. -/
  layout : p.LaidOut
  /-- Whatever is requested from now on, the slots stay in front. -/
  slots_after : ∀ requests, p.slots.toList <+: (p.after requests).slots.toList
  /-- A constant stays in its slot. -/
  get?_after : ∀ requests i c, p.get? i = some c → (p.after requests).get? i = some c
  /-- A request that is granted is answered, then and ever after. -/
  answered : ∀ (request : Request) i q, request.run p = (.ok i, q) →
    ∀ requests, request.Answered (q.after requests) i
  /-- A constant that is there already is found in its lowest slot, and nothing changes. -/
  present : ∀ i c, p.get? i = some c → ∃ k, (Request.constant c).run p = (.ok k, p) ∧
    p.get? k = some c ∧ ∀ j, p.get? j = some c → k ≤ j
  /-- Interning a constant fails just when it is not there and its slots would be too many, and
  then nothing changes. -/
  full : ∀ c e q, (Request.constant c).run p = (.error e, q) ↔
    (∀ i, p.get? i ≠ some c) ∧ 65535 < p.size + c.width ∧ e = .poolOverflow ∧ q = p

theorem LaidOut.isTable (h : p.LaidOut) : p.IsTable where
  layout := h
  slots_after requests := by
    obtain ⟨cs, hcs⟩ := (grows_after p requests).extends.slots
    exact ⟨_, hcs.symm⟩
  get?_after requests _ _ hc := (grows_after p requests).extends.get? hc
  answered _ _ q hrun requests :=
    (Request.answered_of_run hrun).mono (grows_after q requests).extends
  present _ _ hc := insert_of_get? hc
  full _ _ _ := insert_eq_error

/-- **A pool is an append-only interning table.**  Take the empty pool, or one that was read from
bytes, and request what you will, granted or not: the pool that is left has the laws of a table,
and if it was empty in the beginning, no constant is in it twice. -/
theorem isTable_after (hp : p = .empty ∨ ∃ data rest, reader data = .ok (p, rest))
    (requests : List Request) :
    (p.after requests).IsTable ∧ (p = .empty → (p.after requests).HasNoRepeats) := by
  have hlaidOut : p.LaidOut := by
    obtain rfl | ⟨data, rest, hread⟩ := hp
    · exact laidOut_empty
    · exact laidOut_of_reader hread
  refine ⟨((grows_after p requests).extends.laidOut hlaidOut).isTable, ?_⟩
  rintro rfl
  exact (grows_after .empty requests).hasNoRepeats hasNoRepeats_empty

/-- A pool that was read holds a text twice.  A class of this name is interned at the lower of the
two slots, though there is one already at the higher. -/
theorem isTable_after_repeated :
    let requests : List Request := [.classRef "A", .constant (.long 7)]
    let data : Bytes := [0, 4, 1, 0, 1, 65, 1, 0, 1, 65, 7, 0, 2]
    let p : ConstantPool := ⟨#[none, some (.utf8 "A"), some (.utf8 "A"), some (.classInfo 2)]⟩
    let q : ConstantPool := ⟨p.slots ++ #[some (.classInfo 1), some (.long 7), none]⟩
    reader data = .ok (p, []) ∧ p.after requests = q ∧ q.IsTable ∧
      (empty.after requests).HasNoRepeats := by
  intro requests data p q
  have hread : reader data = .ok (p, []) := by rfl
  have hafter : p.after requests = q := by decide +kernel
  have htable := (isTable_after (.inr ⟨data, [], hread⟩) requests).1
  rw [hafter] at htable
  exact ⟨hread, hafter, htable, (isTable_after (.inl rfl) requests).2 rfl⟩

/-! ### Interned pools as bytes -/

/-- A pool whose slots are in order is read back from its bytes just when it can be stored. -/
theorem LaidOut.reader_write_iff (h : p.LaidOut) :
    reader p.write = .ok (p, []) ↔ p.WellFormed := by
  obtain ⟨hsize, cs, hslots⟩ := laidOut_iff.1 h
  rw [decodes_reader _ p.write (Nat.le_refl _) p []]
  constructor
  · rintro ⟨_, ⟨-, cs', row, hslots', hrow, rfl⟩, hwrite⟩
    -- the bytes are those that the constants are written to, so no text was stored in another way
    obtain ⟨ss, -, hbytes, hrecoded, hreadable, hfits⟩ := Segment.ofSlots_row hrow []
    rw [List.append_nil, write_eq hslots', List.append_cancel_left_eq] at hwrite
    have hsame : ss.flatMap Segment.recoded ++ [] = ss.flatMap Segment.bytes ++ [] := by
      rw [hrecoded, hbytes, hwrite]
    exact wellFormed_iff.2
      ⟨hsize, cs', hslots', hfits (Segment.canonical_of_flatMap_eq hreadable hsame)⟩
  · intro hp
    exact ⟨_, form_write hp, (List.append_nil _).symm⟩

/-- Requests in a row that are all granted: the pool grows by what they ask for, and every one of
them is answered in the end. -/
theorem granted_of_gives {indices : List UInt16}
    (h : Gives (requests.mapM Request.act) p indices q) :
    Grows (fun c => ∃ request ∈ requests, request.Asks c) p q ∧
      ∀ request ∈ requests, ∃ i, request.Answered q i := by
  induction requests generalizing p indices with
  | nil =>
    obtain ⟨-, rfl⟩ := gives_pure.1 h
    exact ⟨.refl, by simp⟩
  | cons request requests ih =>
    rw [List.mapM_cons] at h
    obtain ⟨i, m, hrequest, h⟩ := gives_bind.1 h
    obtain ⟨is, m', hrest, h⟩ := gives_bind.1 h
    obtain ⟨-, rfl⟩ := gives_pure.1 h
    obtain ⟨hgrows, hanswered⟩ := ih hrest
    have hfirst : Grows request.Asks p m := by
      have hrun := request.onlyGrows_act p
      rwa [hrequest] at hrun
    refine ⟨.trans (hfirst.mono fun c hc => ⟨request, by simp, hc⟩)
      (hgrows.mono fun c ⟨r, hr, hc⟩ => ⟨r, List.mem_cons_of_mem _ hr, hc⟩), ?_⟩
    rw [List.forall_mem_cons]
    exact ⟨⟨i, (Request.answered_of_run hrequest).mono hgrows.extends⟩, hanswered⟩

/-- The texts in a pool that was grown from the empty one are those that were passed. -/
theorem mem_slots_iff_of_gives {indices : List UInt16}
    (h : Gives (requests.mapM Request.act) .empty indices p) {text : String} :
    some (.utf8 text) ∈ p.slots ↔ ∃ request ∈ requests, text ∈ request.texts := by
  obtain ⟨hgrows, hanswered⟩ := granted_of_gives h
  constructor
  · intro htext
    obtain htext | ⟨request, hrequest, hasks⟩ := hgrows.mem htext
    · simp [empty] at htext
    · exact ⟨request, hrequest, hasks text rfl⟩
  · rintro ⟨request, hrequest, htext⟩
    obtain ⟨i, hi⟩ := hanswered request hrequest
    exact hi.mem_slots htext

/-- **Which interned pools survive.**  A pool that was grown from the empty one is read back from
its bytes, of which none is left over, if and only if every text that was passed takes at most
65535 bytes.  Nothing else that was interned can get lost. -/
theorem reader_write_iff_texts {indices : List UInt16}
    (h : Gives (requests.mapM Request.act) .empty indices p) :
    reader p.write = .ok (p, []) ↔
      ∀ request ∈ requests, ∀ text ∈ request.texts, (ModifiedUtf8.encode text).length ≤ 65535 := by
  have hlaidOut : p.LaidOut := (granted_of_gives h).1.extends.laidOut laidOut_empty
  rw [hlaidOut.reader_write_iff, hlaidOut.wellFormed_iff_texts]
  simp only [mem_slots_iff_of_gives h]
  exact ⟨fun hp request hrequest text htext => hp text ⟨request, hrequest, htext⟩,
    fun hp text ⟨request, hrequest, htext⟩ => hp request hrequest text htext⟩

theorem encode_replicate (n : Nat) :
    ModifiedUtf8.encode (String.ofList (List.replicate n 'a')) = List.replicate n 97 := by
  have ha : (CodeUnits.ofChar 'a').flatMap ModifiedUtf8.encodeUnit = [97] := by decide
  rw [ModifiedUtf8.encode, String.toList_ofList, List.flatMap_assoc,
    List.flatMap_replicate, ha, List.flatten_replicate_singleton]

/-- A text of 65536 letters is interned, but its length does not fit in front of it: what is read
back is the pool with the empty text, and the letters are left over. -/
theorem reader_write_long :
    let text := String.ofList (List.replicate 65536 'a')
    let p : ConstantPool := ⟨#[none, some (.utf8 text)]⟩
    Gives ([Request.utf8 text].mapM Request.act) .empty [1] p ∧ ¬ reader p.write = .ok (p, []) ∧
      reader p.write = .ok (⟨#[none, some (.utf8 "")]⟩, List.replicate 65536 97) := by
  intro text p
  have hencode : ModifiedUtf8.encode text = List.replicate 65536 97 := encode_replicate 65536
  clear_value text
  have hgives : Gives ([Request.utf8 text].mapM Request.act) .empty [1] p := by
    have hinsert : empty.insert (.utf8 text) = (.ok 1, p) := by
      simp [insert, indexOf?, holds, empty, size, push, Constant.isWide, Constant.width, maxSlots,
        p]
    rw [List.mapM_cons, gives_bind]
    exact ⟨1, p, hinsert, rfl⟩
  refine ⟨hgives, ?_, ?_⟩
  · rw [reader_write_iff_texts hgives]
    intro hle
    have := hle (.utf8 text) (by simp) text (by simp [Request.texts])
    rw [hencode, List.length_replicate] at this
    exact absurd this (by decide)
  · have hwrite : p.write = [0, 2, 1, 0, 0] ++ List.replicate 65536 97 := by
      have hslots : p.slots.toList = none :: slotsOf [.utf8 text] := rfl
      rw [write_eq hslots, List.flatMap_singleton, Constant.write, hencode, List.length_replicate]
      have hsize : p.size = 2 := rfl
      have hcounts : bytesOfCount 2 = [0, 2] ∧ bytesOfCount 65536 = [0, 0] := by decide
      rw [hsize, hcounts.1, hcounts.2]
      rfl
    rw [hwrite, decodes_reader _ _ (Nat.le_refl _)]
    exact ⟨_, ⟨by decide, [.utf8 ""], _, rfl, ⟨_, _, ⟨[], rfl, by decide, rfl⟩, rfl, rfl⟩, rfl⟩,
      rfl⟩

end ConstantPool

end ClassWeave
