import ClassWeave.Attribute
import ClassWeave.Proofs.Annotation
import ClassWeave.Proofs.Except

/-!
# The stored forms of attributes

* `Attribute.Named` : the name of an attribute selects what it holds.
* `Attribute.Sized` : what an attribute holds keeps to the limits of its kind.
* `Attribute.Fits` : both, for an attribute and everything inside it.
* `Attribute.decodes_reader` : a reader that is given as much depth as there are bytes reads exactly
  these attributes, each from the bytes that it is written to.
-/

namespace ClassWeave

open Reader

/-! ### Method bodies -/

theorem Handler.decodes_reader (n : Nat) :
    Handler.reader.Decodes n fun h bs => True ∧ bs = h.write := by
  refine (decodes_bind (decodes_u16 n) fun start => decodes_bind (decodes_u16 n) fun stop =>
    decodes_bind (decodes_u16 n) fun target => decodes_map (decodes_u16 n)
      (Handler.mk start stop target)).congr ?_
  rintro ⟨start, stop, target, caught⟩ bs
  constructor
  · rintro ⟨_, _, _, rfl, ⟨_, _, _, rfl, ⟨_, _, _, rfl, ⟨_, ⟨⟩, rfl⟩, rfl⟩, rfl⟩, rfl⟩
    exact ⟨trivial, rfl⟩
  · rintro ⟨-, rfl⟩
    exact ⟨_, _, _, rfl, ⟨_, _, _, rfl, ⟨_, _, _, rfl, ⟨_, rfl, rfl⟩, rfl⟩, rfl⟩, rfl⟩

namespace CodeOf

variable {α : Type}

/-- The bytes of a method body up to its attributes. -/
def front (body : CodeOf α) : Bytes :=
  bytes16 body.maxStack ++ (bytes16 body.maxLocals ++
    (BigEndian.encode 4 body.instructions.length ++ (body.instructions ++
      (bytesOfCount body.handlers.length ++ body.handlers.flatMap Handler.write))))

/-- A method body has some code, and the length of its code fits into a half word. -/
def Sized (body : CodeOf α) : Prop :=
  0 < body.instructions.length ∧ body.instructions.length < 2 ^ 16

theorem writeFront_eq_ok {body : CodeOf α} {bs : Bytes} :
    Code.writeFront body.maxStack body.maxLocals body.instructions body.handlers = .ok bs ↔
      body.instructions.length < 2 ^ 32 ∧ body.handlers.length < 2 ^ 16 ∧ bs = body.front := by
  unfold Code.writeFront
  simp only
  split
  · rename_i hlen
    simp only [bind, Except.bind, throw, throwThe, MonadExceptOf.throw, reduceCtorEq, false_iff]
    omega
  split
  · rename_i hcount
    simp only [bind, Except.bind, throw, throwThe, MonadExceptOf.throw, reduceCtorEq, false_iff]
    omega
  · rename_i hlen hcount
    rw [except_pure_eq_ok, front]
    constructor
    · rintro rfl
      exact ⟨by omega, by omega, rfl⟩
    · rintro ⟨-, -, rfl⟩
      rfl

theorem badLength_iff (length : UInt32) :
    (length = 0 ∨ 65536 ≤ length) ↔ ¬ (0 < length.toNat ∧ length.toNat < 2 ^ 16) := by
  simp only [← UInt32.toNat_inj, UInt32.le_iff_toNat_le, UInt32.reduceToNat]
  omega

theorem decodes_reader {n : Nat} {attributes : Reader (List α)} {form : List α → Bytes → Prop}
    (h : attributes.Decodes n form) : (CodeOf.reader attributes).Decodes n fun body bs =>
      body.Sized ∧ body.handlers.length < 2 ^ 16 ∧
        ∃ table, form body.attributes table ∧ bs = body.front ++ table := by
  refine (decodes_bind (decodes_u16 n) fun maxStack => decodes_bind (decodes_u16 n) fun maxLocals =>
    decodes_bind (decodes_u32 n) fun length =>
    decodes_ite (fun _ => decodes_throw n (.badCodeLength length)) fun _ =>
    decodes_bind (decodes_bytes n length.toNat) fun instructions =>
    decodes_bind (decodes_table_of_write (Handler.decodes_reader n)) fun handlers =>
    decodes_map h (CodeOf.mk maxStack maxLocals instructions handlers)).congr ?_
  rintro ⟨maxStack, maxLocals, instructions, handlers, attributes⟩ bs
  constructor
  · rintro ⟨_, _, _, rfl, ⟨_, _, _, rfl, ⟨length, _, _, rfl, h, rfl⟩, rfl⟩, rfl⟩
    split at h
    · exact h.elim
    · rename_i hlength
      obtain ⟨_, _, _, ⟨hlen, rfl⟩, ⟨_, _, _, ⟨hcount, -, rfl⟩, ⟨_, ⟨⟩, htable⟩, rfl⟩, rfl⟩ := h
      rw [badLength_iff, Classical.not_not, ← hlen] at hlength
      exact ⟨hlength, hcount, _, htable, by simp [front, bytes32, hlen]⟩
  · rintro ⟨hsized, hcount, table, htable, rfl⟩
    have hlen : (UInt32.ofNat instructions.length).toNat = instructions.length :=
      UInt32.toNat_ofNat_of_lt' (Nat.lt_trans hsized.2 (by decide))
    have hrest : ¬ (UInt32.ofNat instructions.length = 0 ∨
        65536 ≤ UInt32.ofNat instructions.length) := by
      rwa [badLength_iff, Classical.not_not, hlen]
    refine ⟨maxStack, _, _, rfl, ⟨maxLocals, _, _, rfl, ⟨.ofNat instructions.length, _,
      instructions ++ (bytesOfCount handlers.length ++ handlers.flatMap Handler.write ++ table),
      rfl, ?_, rfl⟩, rfl⟩, ?_⟩
    · rw [if_neg hrest]
      exact ⟨instructions, _, _, ⟨hlen.symm, rfl⟩,
        ⟨handlers, _, table, ⟨hcount, fun _ _ => trivial, rfl⟩, ⟨attributes, rfl, htable⟩, rfl⟩,
        rfl⟩
    · simp [front, bytes32, hlen]

end CodeOf

namespace Attribute

/-! ### What an attribute has to satisfy -/

/-- The text that an attribute goes by selects what it holds. -/
def SelectedBy (text : String) : Attribute → Prop
  | raw _ _ => text ≠ codeName ∧ text ≠ visibleName ∧ text ≠ invisibleName
  | annotations _ _ => text = visibleName ∨ text = invisibleName
  | code _ _ => text = codeName

/-- The name of an attribute is a text of the pool that selects what the attribute holds. -/
def Named (pool : ConstantPool) (a : Attribute) : Prop :=
  ∃ text, pool.utf8 a.name = .ok text ∧ a.SelectedBy text

/-- What an attribute holds keeps to the limits of its kind; attributes inside it are left out. -/
def Sized : Attribute → Prop
  | raw _ _ => True
  | annotations _ list => list.length < 2 ^ 16 ∧ ∀ a ∈ list, AnnotationInfo.Fits a
  | code _ body => body.Sized

/-- A property of an attribute and of all attributes inside it. -/
inductive Everywhere (P : Attribute → Prop) : Attribute → Prop
  | raw {name : UInt16} {payload : Bytes} : P (.raw name payload) → Everywhere P (.raw name payload)
  | annotations {name : UInt16} {list : List AnnotationInfo} :
      P (.annotations name list) → Everywhere P (.annotations name list)
  | code {name : UInt16} {body : Code} : P (.code name body) →
      (∀ a ∈ body.attributes, Everywhere P a) → Everywhere P (.code name body)

theorem Everywhere.here {P : Attribute → Prop} {a : Attribute} (h : a.Everywhere P) : P a := by
  cases h <;> assumption

/-- The attributes that can be stored, on the side of what reading asks for. -/
def Fits (pool : ConstantPool) : Attribute → Prop :=
  Everywhere fun a => a.Named pool ∧ a.Sized

theorem Fits.selected {pool : ConstantPool} {a : Attribute} {text : String} (h : a.Fits pool)
    (htext : pool.utf8 a.name = .ok text) : a.SelectedBy text := by
  obtain ⟨text', htext', hselected⟩ := h.here.1
  rw [htext] at htext'
  cases htext'
  exact hselected

/-- The stored form of an attribute. -/
def Form (pool : ConstantPool) (a : Attribute) (bs : Bytes) : Prop :=
  a.Fits pool ∧ a.write = .ok bs

/-! ### What is written -/

theorem framed_eq_ok {name : UInt16} {payload bs : Bytes} : framed name payload = .ok bs ↔
    payload.length < 2 ^ 32 ∧
      bs = bytes16 name ++ (BigEndian.encode 4 payload.length ++ payload) := by
  unfold framed
  simp only
  split
  · rename_i h
    constructor
    · rintro ⟨⟩
      exact ⟨h, rfl⟩
    · rintro ⟨-, rfl⟩
      rfl
  · rename_i h
    simp only [reduceCtorEq, h, false_and]

theorem framedTable_eq_ok {count : Nat} {rows : Except Malformation Bytes} {bs : Bytes} :
    framedTable count rows = .ok bs ↔
      count < 2 ^ 16 ∧ ∃ rs, rows = .ok rs ∧ bs = bytesOfCount count ++ rs := by
  unfold framedTable
  split
  · rename_i h
    have hcount : ¬ count < 2 ^ 16 := by omega
    simp only [hcount, false_and, iff_false]
    exact except_throw_ne_ok
  · rename_i h
    have hcount : count < 2 ^ 16 := by omega
    simp only [hcount, true_and]
    rw [except_bind_eq_ok]
    simp only [except_pure_eq_ok]

theorem writeTable_eq_ok {as : List Attribute} {bs : Bytes} : writeTable as = .ok bs ↔
    as.length < 2 ^ 16 ∧ ∃ rows, writeAll as = .ok rows ∧ bs = bytesOfCount as.length ++ rows :=
  framedTable_eq_ok

/-- The bytes behind the name and the length of an attribute. -/
def payload : Attribute → Except Malformation Bytes
  | raw _ payload => .ok payload
  | annotations _ list => .ok (AnnotationInfo.writeList list)
  | code _ body => do
    let front ← Code.writeFront body.maxStack body.maxLocals body.instructions body.handlers
    let table ← writeTable body.attributes
    return front ++ table

theorem write_eq (a : Attribute) : a.write = (do framed a.name (← a.payload)) := by
  cases a with
  | raw | annotations => rfl
  | code name body =>
    simp only [write, payload, writeTable, bind_assoc, pure_bind]
    rfl

theorem write_eq_ok {a : Attribute} {bs : Bytes} : a.write = .ok bs ↔
    ∃ p, a.payload = .ok p ∧ p.length < 2 ^ 32 ∧
      bs = bytes16 a.name ++ (BigEndian.encode 4 p.length ++ p) := by
  rw [write_eq, except_bind_eq_ok]
  simp only [framed_eq_ok]

theorem payload_code_eq_ok {name : UInt16} {body : Code} {bs : Bytes} :
    (code name body).payload = .ok bs ↔
      (body.instructions.length < 2 ^ 32 ∧ body.handlers.length < 2 ^ 16) ∧
        ∃ table, writeTable body.attributes = .ok table ∧ bs = body.front ++ table := by
  rw [payload, except_bind_eq_ok]
  simp only [CodeOf.writeFront_eq_ok, except_bind_eq_ok, except_pure_eq_ok]
  constructor
  · rintro ⟨_, ⟨hlen, hcount, rfl⟩, table, htable, rfl⟩
    exact ⟨⟨hlen, hcount⟩, table, htable, rfl⟩
  · rintro ⟨⟨hlen, hcount⟩, table, htable, rfl⟩
    exact ⟨_, ⟨hlen, hcount, rfl⟩, table, htable, rfl⟩

theorem writeAll_cons_eq_ok {a : Attribute} {as : List Attribute} {bs : Bytes} :
    writeAll (a :: as) = .ok bs ↔
      ∃ front, a.write = .ok front ∧ ∃ back, writeAll as = .ok back ∧ bs = front ++ back := by
  simp only [writeAll, except_bind_eq_ok, except_pure_eq_ok]

/-- The stored form of a table of attributes. -/
def TableForm (pool : ConstantPool) (as : List Attribute) (bs : Bytes) : Prop :=
  (∀ a ∈ as, a.Fits pool) ∧ writeTable as = .ok bs

theorem table_form_iff {pool : ConstantPool} {as : List Attribute} {bs : Bytes} :
    Table (Form pool) as bs ↔ TableForm pool as bs := by
  rw [TableForm, writeTable_eq_ok]
  exact table_iff_writeAll (fun _ _ _ => writeAll_cons_eq_ok) rfl

/-! ### What is read -/

theorem write_ne_nil {a : Attribute} {bs : Bytes} (h : a.write = .ok bs) : bs ≠ [] := by
  obtain ⟨p, -, -, rfl⟩ := write_eq_ok.1 h
  simp [bytes16, BigEndian.encode]

/-- What a payload holds, by the text of the name in front of it. -/
def contents (pool : ConstantPool) (depth : Nat) (name : UInt16) (text : String)
    (payload : Bytes) : Except Malformation Attribute :=
  if text = codeName then
    code name <$> whole (CodeOf.reader (table (reader pool depth))) (fun _ => .trailingCodeBytes)
      payload
  else if text = visibleName ∨ text = invisibleName then
    annotations name <$> AnnotationInfo.readList payload
  else .ok (raw name payload)

theorem reader_succ_eq_ok {pool : ConstantPool} {depth : Nat} {data rest : Bytes} {a : Attribute} :
    reader pool (depth + 1) data = .ok (a, rest) ↔
      ∃ name p text, p.length < 2 ^ 32 ∧
        data = bytes16 name ++ (BigEndian.encode 4 p.length ++ p) ++ rest ∧
        pool.utf8 name = .ok text ∧ contents pool depth name text p = .ok a := by
  -- what follows the payload looks at the payload only, and takes no more bytes
  have hcontents (name : UInt16) (text : String) (p : Bytes) :
      (if text = codeName then do
          return code name (← whole (CodeOf.reader (table (reader pool depth)))
            (fun _ => .trailingCodeBytes) p)
        else if text = visibleName ∨ text = invisibleName then
          return annotations name (← AnnotationInfo.readList p)
        else return raw name p : Reader Attribute) = liftM (contents pool depth name text p) := by
    unfold contents
    split
    · cases whole (CodeOf.reader (table (reader pool depth))) (fun _ => .trailingCodeBytes) p <;>
        rfl
    split
    · cases AnnotationInfo.readList p <;> rfl
    · rfl
  simp only [reader, hcontents, bind_eq_ok, u16_eq_ok, u32_eq_ok, bytes_eq_ok, lift_eq_ok]
  constructor
  · rintro ⟨name, _, rfl, length, _, rfl, p, _, ⟨hlen, rfl⟩, text, _, ⟨htext, rfl⟩, ha, rfl⟩
    exact ⟨name, p, text, hlen ▸ length.toNat_lt, by simp [bytes32, hlen], htext, ha⟩
  · rintro ⟨name, p, text, hlt, rfl, htext, ha⟩
    have hlen : (UInt32.ofNat p.length).toNat = p.length := UInt32.toNat_ofNat_of_lt' hlt
    exact ⟨name, _, List.append_assoc .., .ofNat p.length, _, by simp [bytes32, hlen], p, _,
      ⟨hlen.symm, rfl⟩, text, _, ⟨htext, rfl⟩, ha, rfl⟩

theorem contents_eq_ok {pool : ConstantPool} {depth : Nat} {name : UInt16} {text : String}
    {p : Bytes} {a : Attribute} (ih : (reader pool depth).Decodes depth (Form pool))
    (hp : p.length ≤ depth) (htext : pool.utf8 name = .ok text) :
    contents pool depth name text p = .ok a ↔
      a.name = name ∧ a.Fits pool ∧ a.payload = .ok p := by
  have htable := (decodes_table ih).congr fun as bs => table_form_iff
  have hbody := CodeOf.decodes_reader (htable.mono hp)
  unfold contents
  split
  · -- a method body
    subst text
    rw [except_map_eq_ok]
    constructor
    · rintro ⟨body, h, rfl⟩
      obtain ⟨hsized, hcount, table, ⟨hfits, htable⟩, rfl⟩ := (whole_eq_ok hbody).1 h
      refine ⟨rfl, .code ⟨⟨_, htext, rfl⟩, hsized⟩ hfits, ?_⟩
      exact payload_code_eq_ok.2 ⟨⟨Nat.lt_trans hsized.2 (by decide), hcount⟩, table, htable, rfl⟩
    · rintro ⟨rfl, hfits, hpayload⟩
      have hselected := hfits.selected htext
      cases hfits with
      | raw => exact absurd rfl hselected.1
      | annotations =>
        have hcode : ¬ (codeName = visibleName ∨ codeName = invisibleName) := by decide
        exact absurd hselected hcode
      | @code _ body hhere hnested =>
        obtain ⟨⟨-, hcount⟩, table, htable, rfl⟩ := payload_code_eq_ok.1 hpayload
        exact ⟨body, (whole_eq_ok hbody).2 ⟨hhere.2, hcount, table, ⟨hnested, htable⟩, rfl⟩, rfl⟩
  split
  · -- a list of annotations
    rename_i hcode hvisible
    rw [except_map_eq_ok]
    constructor
    · rintro ⟨list, h, rfl⟩
      obtain ⟨hlen, hfits, rfl⟩ := AnnotationInfo.readList_eq_ok.1 h
      exact ⟨rfl, .annotations ⟨⟨text, htext, hvisible⟩, hlen, hfits⟩, rfl⟩
    · rintro ⟨rfl, hfits, hpayload⟩
      have hselected := hfits.selected htext
      cases hfits with
      | raw => exact absurd hvisible (by simp [hselected.2])
      | @annotations _ list hhere =>
        cases hpayload
        exact ⟨list, AnnotationInfo.readList_eq_ok.2 ⟨hhere.2.1, hhere.2.2, rfl⟩, rfl⟩
      | code => exact absurd hselected hcode
  · -- anything else keeps its bytes
    rename_i hcode hvisible
    constructor
    · rintro h
      cases h
      exact ⟨rfl, .raw ⟨⟨text, htext, hcode, not_or.1 hvisible⟩, trivial⟩, rfl⟩
    · rintro ⟨rfl, hfits, hpayload⟩
      have hselected := hfits.selected htext
      cases hfits with
      | raw =>
        cases hpayload
        rfl
      | annotations => exact absurd hselected hvisible
      | code => exact absurd hselected hcode

theorem decodes_reader (pool : ConstantPool) (depth : Nat) :
    (reader pool depth).Decodes depth (Form pool) := by
  -- the depth bounds the bytes that are left: a payload is shorter than its attribute
  induction depth with
  | zero =>
    intro data hdata a rest
    constructor
    · intro h
      exact (throw_ne_ok h).elim
    · rintro ⟨bs, ⟨-, hbs⟩, rfl⟩
      have := write_ne_nil hbs
      simp_all
  | succ depth ih =>
    intro data hdata a rest
    rw [reader_succ_eq_ok]
    constructor
    · rintro ⟨name, p, text, hlt, rfl, htext, ha⟩
      have hp : p.length ≤ depth := by
        simp only [List.length_append, length_bytes16, BigEndian.length_encode] at hdata
        omega
      obtain ⟨rfl, hfits, hpayload⟩ := (contents_eq_ok ih hp htext).1 ha
      exact ⟨_, ⟨hfits, write_eq_ok.2 ⟨p, hpayload, hlt, rfl⟩⟩, rfl⟩
    · rintro ⟨bs, ⟨hfits, hwrite⟩, rfl⟩
      obtain ⟨p, hpayload, hlt, rfl⟩ := write_eq_ok.1 hwrite
      have hp : p.length ≤ depth := by
        simp only [List.length_append, length_bytes16, BigEndian.length_encode] at hdata
        omega
      obtain ⟨text, htext, -⟩ := hfits.here.1
      have ha := (contents_eq_ok ih hp htext).2 ⟨rfl, hfits, hpayload⟩
      exact ⟨a.name, p, text, hlt, rfl, htext, ha⟩

theorem decodes_tableReader (pool : ConstantPool) (depth : Nat) :
    (tableReader pool depth).Decodes depth (TableForm pool) :=
  (decodes_table (decodes_reader pool depth)).congr fun _ _ => table_form_iff

end Attribute

end ClassWeave
