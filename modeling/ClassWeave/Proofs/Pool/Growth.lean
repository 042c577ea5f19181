import ClassWeave.Pool.Intern
import ClassWeave.Proofs.Pool.Codec
import ClassWeave.Proofs.Stateful

/-!
# Growing pools

A pool grows at its end only, so whatever a slot number leads to, it leads to for good.

* `ConstantPool.Extends` : one pool is another with further constants at its end.
* `ConstantPool.Extends.get?` and its companions : what was found in a pool is found in all that
  extend it.
* `Interning.gives_utf8`, `gives_classRef`, `gives_fieldRef` and their companions : an interned
  slot leads back to the texts that were asked for.
-/

namespace ClassWeave

/-- The slots of the class and of the name and type, if the constant refers to a member. -/
def Constant.member? : Constant → Option (UInt16 × UInt16)
  | .fieldRef o nt | .methodRef o nt | .interfaceMethodRef o nt => some (o, nt)
  | _ => none

/-- The same of a constant that refers to a field. -/
def Constant.field? : Constant → Option (UInt16 × UInt16)
  | .fieldRef o nt => some (o, nt)
  | _ => none

/-- The same of a constant that refers to a method of a class. -/
def Constant.method? : Constant → Option (UInt16 × UInt16)
  | .methodRef o nt => some (o, nt)
  | _ => none

theorem Constant.field?_eq_some {c : Constant} {o nt : UInt16} :
    c.field? = some (o, nt) ↔ c = .fieldRef o nt := by
  cases c <;> simp [Constant.field?]

theorem Constant.method?_eq_some {c : Constant} {o nt : UInt16} :
    c.method? = some (o, nt) ↔ c = .methodRef o nt := by
  cases c <;> simp [Constant.method?]

namespace ConstantPool

variable {p q r : ConstantPool}

/-- The second pool is the first with further constants at its end, and the number of its slots
can still be told if that of the first could. -/
structure Extends (p q : ConstantPool) : Prop where
  /-- The new slots are those of constants in a row. -/
  slots : ∃ cs, q.slots.toList = p.slots.toList ++ slotsOf cs
  /-- There are not too many of them. -/
  size_le : p.size ≤ maxSlots → q.size ≤ maxSlots

@[refl] theorem Extends.refl (p : ConstantPool) : p.Extends p :=
  ⟨⟨[], by simp [slotsOf]⟩, id⟩

theorem slotsOf_append (cs ds : List Constant) : slotsOf (cs ++ ds) = slotsOf cs ++ slotsOf ds := by
  induction cs with
  | nil => rfl
  | cons c cs ih =>
    simp only [List.cons_append, slotsOf, ih]
    split <;> rfl

theorem Extends.trans (h : p.Extends q) (h' : q.Extends r) : p.Extends r := by
  obtain ⟨cs, hcs⟩ := h.slots
  obtain ⟨ds, hds⟩ := h'.slots
  refine ⟨⟨cs ++ ds, ?_⟩, fun hp => h'.size_le (h.size_le hp)⟩
  rw [hds, hcs, slotsOf_append, List.append_assoc]

/-! ### What was found stays found -/

theorem Extends.get? (h : p.Extends q) {i : UInt16} {c : Constant} (hc : p.get? i = some c) :
    q.get? i = some c := by
  obtain ⟨cs, hcs⟩ := h.slots
  have hc : p.slots.toList[i.toNat]? = some (some c) := by
    simpa [ConstantPool.get?, Option.join_eq_some_iff] using hc
  have hi : i.toNat < p.slots.toList.length := (List.getElem?_eq_some_iff.1 hc).1
  rw [ConstantPool.get?, ← Array.getElem?_toList, hcs, List.getElem?_append_left hi, hc]
  rfl

theorem get_eq_ok {i : UInt16} {c : Constant} : p.get i = .ok c ↔ p.get? i = some c := by
  unfold get
  split
  · rename_i d hd
    simp [hd]
  · rename_i hnone
    simp [hnone]

theorem utf8_eq_ok {i : UInt16} {text : String} :
    p.utf8 i = .ok text ↔ p.get? i = some (.utf8 text) := by
  rw [utf8, except_bind_eq_ok]
  constructor
  · rintro ⟨c, hc, h⟩
    split at h
    · cases h
      exact get_eq_ok.1 hc
    · cases h
  · intro h
    exact ⟨_, get_eq_ok.2 h, rfl⟩

theorem className_eq_ok {i : UInt16} {name : String} :
    p.className i = .ok name ↔ ∃ n, p.get? i = some (.classInfo n) ∧ p.utf8 n = .ok name := by
  rw [className, except_bind_eq_ok]
  constructor
  · rintro ⟨c, hc, h⟩
    split at h
    · exact ⟨_, get_eq_ok.1 hc, h⟩
    · cases h
  · rintro ⟨n, hc, h⟩
    exact ⟨_, get_eq_ok.2 hc, h⟩

theorem nameAndType_eq_ok {i : UInt16} {name descriptor : String} :
    p.nameAndType i = .ok (name, descriptor) ↔ ∃ n d, p.get? i = some (.nameAndType n d) ∧
      p.utf8 n = .ok name ∧ p.utf8 d = .ok descriptor := by
  rw [nameAndType, except_bind_eq_ok]
  constructor
  · rintro ⟨c, hc, h⟩
    split at h
    · simp only [except_bind_eq_ok, except_pure_eq_ok, Prod.mk.injEq] at h
      obtain ⟨_, hn, _, hd, rfl, rfl⟩ := h
      exact ⟨_, _, get_eq_ok.1 hc, hn, hd⟩
    · cases h
  · rintro ⟨n, d, hc, hn, hd⟩
    refine ⟨_, get_eq_ok.2 hc, ?_⟩
    simp only [hn, hd]
    rfl

theorem member_eq_ok {o nt : UInt16} {m : MemberRef} : p.member o nt = .ok m ↔
    p.className o = .ok m.owner ∧ p.nameAndType nt = .ok (m.name, m.descriptor) := by
  rw [member, except_bind_eq_ok]
  simp only [except_bind_eq_ok, except_pure_eq_ok]
  constructor
  · rintro ⟨⟨n, d⟩, hnt, owner, ho, rfl⟩
    exact ⟨ho, hnt⟩
  · rintro ⟨ho, hnt⟩
    exact ⟨_, hnt, _, ho, rfl⟩

theorem memberRef_eq_ok {i : UInt16} {m : MemberRef} : p.memberRef i = .ok m ↔
    ∃ c o nt, p.get? i = some c ∧ c.member? = some (o, nt) ∧ p.member o nt = .ok m := by
  rw [memberRef, except_bind_eq_ok]
  constructor
  · rintro ⟨c, hc, h⟩
    split at h
    case h_4 => cases h
    all_goals exact ⟨_, _, _, get_eq_ok.1 hc, rfl, h⟩
  · rintro ⟨c, o, nt, hc, hmember, h⟩
    refine ⟨c, get_eq_ok.2 hc, ?_⟩
    cases c with
    | fieldRef | methodRef | interfaceMethodRef =>
      cases hmember
      exact h
    | _ => cases hmember

theorem Extends.utf8 (h : p.Extends q) {i : UInt16} {text : String} (ht : p.utf8 i = .ok text) :
    q.utf8 i = .ok text :=
  utf8_eq_ok.2 (h.get? (utf8_eq_ok.1 ht))

theorem Extends.className (h : p.Extends q) {i : UInt16} {name : String}
    (hn : p.className i = .ok name) : q.className i = .ok name := by
  obtain ⟨n, hc, hn⟩ := className_eq_ok.1 hn
  exact className_eq_ok.2 ⟨n, h.get? hc, h.utf8 hn⟩

theorem Extends.nameAndType (h : p.Extends q) {i : UInt16} {name descriptor : String}
    (hnt : p.nameAndType i = .ok (name, descriptor)) :
    q.nameAndType i = .ok (name, descriptor) := by
  obtain ⟨n, d, hc, hn, hd⟩ := nameAndType_eq_ok.1 hnt
  exact nameAndType_eq_ok.2 ⟨n, d, h.get? hc, h.utf8 hn, h.utf8 hd⟩

/-! ### Fields and methods -/

/-- The member that a slot refers to by a constant of a kind. -/
def refAt? (p : ConstantPool) (kind : Constant → Option (UInt16 × UInt16)) (i : UInt16) :
    Option MemberRef := do
  let (owner, nameAndType) ← kind (← p.get? i)
  (p.member owner nameAndType).toOption

/-- The field that a slot refers to, if it refers to a field. -/
def fieldAt? (p : ConstantPool) : UInt16 → Option MemberRef := p.refAt? Constant.field?

/-- The method of a class that a slot refers to, if it refers to one. -/
def methodAt? (p : ConstantPool) : UInt16 → Option MemberRef := p.refAt? Constant.method?

theorem refAt?_eq_some {kind : Constant → Option (UInt16 × UInt16)} {i : UInt16} {m : MemberRef} :
    p.refAt? kind i = some m ↔
      ∃ c o nt, p.get? i = some c ∧ kind c = some (o, nt) ∧ p.member o nt = .ok m := by
  have htoOption (e : Except Malformation MemberRef) : e.toOption = some m ↔ e = .ok m := by
    cases e <;> simp [Except.toOption]
  simp only [refAt?, Option.bind_eq_bind, Option.bind_eq_some_iff, htoOption]
  constructor
  · rintro ⟨c, hc, ⟨o, nt⟩, hkind, hm⟩
    exact ⟨c, o, nt, hc, hkind, hm⟩
  · rintro ⟨c, o, nt, hc, hkind, hm⟩
    exact ⟨c, hc, (o, nt), hkind, hm⟩

/-- A field and a method of a class are members. -/
theorem memberRef_of_refAt? {kind : Constant → Option (UInt16 × UInt16)}
    (hkind : kind = Constant.field? ∨ kind = Constant.method?) {i : UInt16} {m : MemberRef}
    (h : p.refAt? kind i = some m) : p.memberRef i = .ok m := by
  obtain ⟨c, o, nt, hc, hslots, hm⟩ := refAt?_eq_some.1 h
  refine memberRef_eq_ok.2 ⟨c, o, nt, hc, ?_, hm⟩
  rcases hkind with rfl | rfl
  · rw [Constant.field?_eq_some.1 hslots]
    rfl
  · rw [Constant.method?_eq_some.1 hslots]
    rfl

theorem Extends.member (h : p.Extends q) {o nt : UInt16} {m : MemberRef}
    (hm : p.member o nt = .ok m) : q.member o nt = .ok m := by
  obtain ⟨ho, hnt⟩ := member_eq_ok.1 hm
  exact member_eq_ok.2 ⟨h.className ho, h.nameAndType hnt⟩

theorem Extends.refAt? (h : p.Extends q) {kind : Constant → Option (UInt16 × UInt16)}
    {i : UInt16} {m : MemberRef} (hm : p.refAt? kind i = some m) : q.refAt? kind i = some m := by
  obtain ⟨c, o, nt, hi, hkind, hm⟩ := refAt?_eq_some.1 hm
  exact refAt?_eq_some.2 ⟨c, o, nt, h.get? hi, hkind, h.member hm⟩

theorem Extends.memberRef (h : p.Extends q) {i : UInt16} {m : MemberRef}
    (hm : p.memberRef i = .ok m) : q.memberRef i = .ok m := by
  obtain ⟨c, o, nt, hi, hmember, hm⟩ := memberRef_eq_ok.1 hm
  exact memberRef_eq_ok.2 ⟨c, o, nt, h.get? hi, hmember, h.member hm⟩

/-! ### Interning a constant -/

theorem holds_iff {c : Constant} {slot : Option Constant} :
    holds c slot = true ↔ slot = some c := by
  cases slot <;> simp [holds]

theorem get?_of_indexOf? {c : Constant} {i : UInt16} (h : p.indexOf? c = some i) :
    p.get? i = some c := by
  unfold indexOf? at h
  split at h
  · rename_i k hk
    split at h
    · rename_i hlt
      cases h
      obtain ⟨hsize, hholds, -⟩ := Array.findIdx?_eq_some_iff_getElem.1 hk
      rw [ConstantPool.get?, toNat_ofNat_half hlt, Array.getElem?_eq_getElem hsize,
        holds_iff.1 hholds]
      rfl
    · cases h
  · cases h

theorem push_slots (p : ConstantPool) (c : Constant) :
    (p.push c).slots.toList = p.slots.toList ++ slotsOf [c] := by
  unfold push
  simp only [slotsOf]
  split <;> simp

theorem push_size (p : ConstantPool) (c : Constant) : (p.push c).size = p.size + c.width := by
  unfold push Constant.width
  split <;> simp [size]

theorem get?_push {c : Constant} (h : p.size + c.width ≤ maxSlots) :
    (p.push c).get? (UInt16.ofNat p.size) = some c := by
  have hwidth : 0 < c.width := by
    unfold Constant.width
    split <;> decide
  have hlt : p.size < 65536 := by
    unfold maxSlots at h
    omega
  rw [get?, toNat_ofNat_half hlt, ← Array.getElem?_toList, push_slots,
    List.getElem?_append_right (by simp [size])]
  simp [size, slotsOf]

/-- **What interning a constant can do**: find it, append it, or fail for want of room. -/
theorem insert_cases (p : ConstantPool) (c : Constant) :
    (∃ i, p.indexOf? c = some i ∧ p.insert c = (.ok i, p)) ∨
      p.indexOf? c = none ∧ p.size + c.width ≤ maxSlots ∧
        p.insert c = (.ok (.ofNat p.size), p.push c) ∨
      p.indexOf? c = none ∧ maxSlots < p.size + c.width ∧
        p.insert c = (.error .poolOverflow, p) := by
  unfold insert
  split
  · rename_i i hi
    exact .inl ⟨i, hi, rfl⟩
  · rename_i hnone
    split
    · rename_i hroom
      exact .inr (.inl ⟨hnone, hroom, rfl⟩)
    · rename_i hfull
      exact .inr (.inr ⟨hnone, Nat.lt_of_not_le hfull, rfl⟩)

theorem extends_push {c : Constant} (h : p.size + c.width ≤ maxSlots) : p.Extends (p.push c) :=
  ⟨⟨[c], push_slots p c⟩, fun _ => push_size p c ▸ h⟩

/-- **An interned constant is found in its slot**, and nothing else has changed. -/
theorem insert_eq_ok {c : Constant} {i : UInt16} (h : p.insert c = (.ok i, q)) :
    p.Extends q ∧ q.get? i = some c := by
  obtain ⟨k, hk, hp⟩ | ⟨-, hroom, hp⟩ | ⟨-, -, hp⟩ := insert_cases p c
  all_goals
    rw [hp] at h
    cases h
  · exact ⟨.refl p, get?_of_indexOf? hk⟩
  · exact ⟨extends_push hroom, get?_push hroom⟩

end ConstantPool

namespace Interning

variable {p q : ConstantPool} {i : UInt16}

theorem gives_constant {c : Constant} (h : Gives (constant c) p i q) :
    p.Extends q ∧ q.get? i = some c :=
  ConstantPool.insert_eq_ok h

theorem gives_utf8 {text : String} (h : Gives (utf8 text) p i q) :
    p.Extends q ∧ q.utf8 i = .ok text := by
  obtain ⟨hext, hi⟩ := gives_constant h
  exact ⟨hext, ConstantPool.utf8_eq_ok.2 hi⟩

theorem gives_classRef {name : String} (h : Gives (classRef name) p i q) :
    p.Extends q ∧ q.className i = .ok name := by
  obtain ⟨n, m, hn, h⟩ := gives_bind.1 h
  obtain ⟨hpm, hn⟩ := gives_utf8 hn
  obtain ⟨hmq, hi⟩ := gives_constant h
  exact ⟨hpm.trans hmq, ConstantPool.className_eq_ok.2 ⟨n, hi, hmq.utf8 hn⟩⟩

theorem gives_nameAndType {name descriptor : String}
    (h : Gives (nameAndType name descriptor) p i q) :
    p.Extends q ∧ q.nameAndType i = .ok (name, descriptor) := by
  obtain ⟨n, m, hn, h⟩ := gives_bind.1 h
  obtain ⟨d, m', hd, h⟩ := gives_bind.1 h
  obtain ⟨hpm, hn⟩ := gives_utf8 hn
  obtain ⟨hmm, hd⟩ := gives_utf8 hd
  obtain ⟨hmq, hi⟩ := gives_constant h
  exact ⟨(hpm.trans hmm).trans hmq,
    ConstantPool.nameAndType_eq_ok.2 ⟨n, d, hi, (hmm.trans hmq).utf8 hn, hmq.utf8 hd⟩⟩

theorem gives_member {owner name descriptor : String} {ref : UInt16 → UInt16 → Constant}
    {kind : Constant → Option (UInt16 × UInt16)} (hkind : ∀ o nt, kind (ref o nt) = some (o, nt))
    (h : Gives (do constant (ref (← classRef owner) (← nameAndType name descriptor))) p i q) :
    p.Extends q ∧ q.refAt? kind i = some { owner, name, descriptor } := by
  obtain ⟨o, m, ho, h⟩ := gives_bind.1 h
  obtain ⟨nt, m', hnt, h⟩ := gives_bind.1 h
  obtain ⟨hpm, ho⟩ := gives_classRef ho
  obtain ⟨hmm, hnt⟩ := gives_nameAndType hnt
  obtain ⟨hmq, hi⟩ := gives_constant h
  refine ⟨(hpm.trans hmm).trans hmq, ConstantPool.refAt?_eq_some.2 ⟨_, o, nt, hi, hkind o nt, ?_⟩⟩
  exact ConstantPool.member_eq_ok.2 ⟨(hmm.trans hmq).className ho, hmq.nameAndType hnt⟩

theorem gives_fieldRef {owner name descriptor : String}
    (h : Gives (fieldRef owner name descriptor) p i q) :
    p.Extends q ∧ q.fieldAt? i = some { owner, name, descriptor } :=
  gives_member (fun _ _ => rfl) h

theorem gives_methodRef {owner name descriptor : String}
    (h : Gives (methodRef owner name descriptor) p i q) :
    p.Extends q ∧ q.methodAt? i = some { owner, name, descriptor } :=
  gives_member (fun _ _ => rfl) h

end Interning

end ClassWeave
