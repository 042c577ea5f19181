import ClassWeave.Proofs.Packed.Capacity
import ClassWeave.Proofs.Packed.Values

/-!
# Calls of accessors

* `Packed.Stays`, `Packed.SameBuffer` : what calls leave as it is.
* `Packed.exists_get`, `Packed.exists_set` : the accessors of a field of fixed size read and write
  the memory at the address of the field.
* `Packed.exists_nestedGet`, `Packed.exists_nestedSet` : the accessors of a nested component read
  and write the number of its slot there.
-/

namespace ClassWeave

namespace Packed

/-! ### What calls leave as it is -/

/-- The object that stands for a nested component is of its type, once there is one. -/
def Flyweights (owner : String) (layout : PackedLayout) (h : Heap) : Prop :=
  ∀ f ∈ layout.fields, ∀ nested, f.kind = .object nested →
    ∀ o v, h.field? o (flyweightMember owner f) = some v →
      v = .null ∨ ∃ p, v = .ref (some p) ∧ h.class? p = some nested

/-- The class has the same buffer, with the same contents. -/
structure SameBuffer (owner : String) (h h' : Heap) : Prop where
  /-- The static field is the same. -/
  data : h'.statics (dataMember owner) = h.statics (dataMember owner)
  /-- The buffer is the same. -/
  buffer : ∀ o, h.statics (dataMember owner) = .ref (some o) → h'.buffer? o = h.buffer? o

/-- Every instance stays in its slot and keeps its class. -/
structure Stays (owner : String) (layout : PackedLayout) (h h' : Heap) : Prop where
  /-- The numbers of the slots stay. -/
  slots : ∀ o v, h.field? o (indexMember owner) = some v → h'.field? o (indexMember owner) = some v
  /-- The classes stay. -/
  classes : ∀ o className, h.class? o = some className → h'.class? o = some className
  /-- Objects still stand for nested components of their types. -/
  flyweights : Flyweights owner layout h → Flyweights owner layout h'

section

variable {owner : String} {layout : PackedLayout} {h h' h'' : Heap} {o : Nat} {b : Buffer}

theorem SameBuffer.refl (owner : String) (h : Heap) : SameBuffer owner h h := ⟨rfl, fun _ _ => rfl⟩

theorem SameBuffer.trans (hfirst : SameBuffer owner h h') (hthen : SameBuffer owner h' h'') :
    SameBuffer owner h h'' :=
  ⟨hthen.data.trans hfirst.data, fun o ho =>
    (hthen.buffer o (hfirst.data.trans ho)).trans (hfirst.buffer o ho)⟩

theorem SameBuffer.holds (hsame : SameBuffer owner h h') (hb : Holds owner h o b) :
    Holds owner h' o b :=
  ⟨hsame.data.trans hb.data, (hsame.buffer o hb.data).trans hb.buffer, hb.size⟩

theorem SameBuffer.ready (hsame : SameBuffer owner h h') (hready : Ready owner h) :
    Ready owner h' := by
  rcases hready with hnull | ⟨o, b, hb⟩
  · exact .inl (hsame.data.trans hnull)
  · exact (hsame.holds hb).ready

theorem SameBuffer.memory (hsame : SameBuffer owner h h') (hready : Ready owner h) :
    memory owner h' = memory owner h := by
  rcases hready with hnull | ⟨o, b, hb⟩
  · rw [memory_of_null hnull, memory_of_null (hsame.data.trans hnull)]
  · rw [hb.memory_eq, (hsame.holds hb).memory_eq]

theorem Stays.refl (owner : String) (layout : PackedLayout) (h : Heap) : Stays owner layout h h :=
  ⟨fun _ _ => id, fun _ _ => id, id⟩

theorem Stays.trans (hfirst : Stays owner layout h h') (hthen : Stays owner layout h' h'') :
    Stays owner layout h h'' :=
  ⟨fun o v hv => hthen.slots o v (hfirst.slots o v hv),
    fun o c hc => hthen.classes o c (hfirst.classes o c hc),
    fun hfly => hthen.flyweights (hfirst.flyweights hfly)⟩

theorem Stays.of_sameInstances (hsame : h.SameInstances h') : Stays owner layout h h' := by
  refine ⟨fun o v hv => (hsame.fields o _).trans hv, fun o c hc => (hsame.classes o).trans hc,
    fun hfly f hf nested hkind o v hv => ?_⟩
  rw [hsame.fields] at hv
  rcases hfly f hf nested hkind o v hv with hnull | ⟨p, hp, hclass⟩
  · exact .inl hnull
  · exact .inr ⟨p, hp, (hsame.classes p).trans hclass⟩

end

/-! ### Reading and writing the buffer -/

section

variable {owner : String} {h : Heap} {p address : Nat} {b : Buffer} {c : Cell} {rest : List Value}

theorem Holds.run?_read (hb : Holds owner h p b) (hfits : address + c.width ≤ b.bytes.length) :
    (Native.read c).run? (.int (.ofNat address) :: .ref (some p) :: rest) h =
      some ((memory owner h).cell c address :: rest, h) := by
  have hsize := hb.size
  have hint : (Int32.ofNat address).toInt = address := Int32.toInt_ofNat_of_lt (by omega)
  have hread : Native.read? c b (.ofNat address) = some ((memory owner h).cell c address) := by
    rw [Native.read?, hint, if_pos (Int.natCast_nonneg address), Int.toNat_natCast,
      Memory.readAt?_eq hfits, hb.memory_eq]
    rfl
  simp [Native.run?, Native.bufferOf?, hb.buffer, hread]

theorem Holds.exists_write {v : Value} {n : Nat} (hb : Holds owner h p b)
    (hfits : address + c.width ≤ b.bytes.length) (hencode : c.encode? v = some n) : ∃ h',
      Ready owner h' ∧ h.SameInstances h' ∧
        memory owner h' = (memory owner h).write address (BigEndian.encode c.width n) ∧
          (Native.write c).run? (v :: .int (.ofNat address) :: .ref (some p) :: rest) h =
            some (.ref (some p) :: rest, h') := by
  have hsize := hb.size
  have hint : (Int32.ofNat address).toInt = address := Int32.toInt_ofNat_of_lt (by omega)
  have hroom : address + (BigEndian.encode c.width n).length ≤ b.bytes.length := by
    rwa [BigEndian.length_encode]
  obtain ⟨bytes, hwrite, hlength, hmemory⟩ := Memory.ofBytes_writeAt? hroom
  let written : Buffer := { b with bytes }
  have hholds : Holds owner (h.put p (.buffer written)) p written :=
    ⟨hb.data, by rw [Heap.buffer?_put hb.buffer, if_pos rfl], hlength ▸ hsize⟩
  have hwritten : Native.write? c b (.ofNat address) v = some written := by
    rw [Native.write?, hint, if_pos (Int.natCast_nonneg address), Int.toNat_natCast]
    simp [hencode, hwrite, written]
  refine ⟨_, hholds.ready, Heap.sameInstances_put hb.buffer written, ?_, ?_⟩
  · rw [hholds.memory_eq, hmemory, hb.memory_eq]
  · simp [Native.run?, Native.bufferOf?, hb.buffer, hwritten]

end

/-! ### Fields of fixed size -/

/-- The method that makes room for a slot is among those of the program. -/
def HasCapacity (P : Program) (owner : String) (stride : Nat) : Prop :=
  ∃ body, P.called? (.invoke .static (capacityCall owner)) = some (body, 1) ∧
    Encodes P.pool (capacityCode owner (.ofNat stride)) body.instructions

section

variable {P : Program} {owner : String} {h h' : Heap} {o slot stride offset : Nat}
  {code : List Piece} {stack : List Value} {locals : Nat → Option Value} {r : Option Value}

theorem exists_ensured (hcapacity : HasCapacity P owner stride) (hready : Ready owner h)
    (hslot : h.field? o (indexMember owner) = some (.int (.ofNat slot)))
    (hfits : (slot + 1) * stride < 2 ^ 31) : ∃ h' p b, Holds owner h' p b ∧ Preserves owner h h' ∧
      (slot + 1) * stride ≤ b.bytes.length ∧
        ∀ {code stack locals r h''}, locals 0 = some (.ref (some o)) →
          P.Completes code ⟨stack, locals, h'⟩ r h'' →
            P.Completes (ensureSlotCode owner ++ code) ⟨stack, locals, h⟩ r h'' := by
  obtain ⟨body, hcalled, hbody⟩ := hcapacity
  obtain ⟨h', p, b, hholds, hkept, hlarge, hrun⟩ := exists_capacity (P := P) hready hfits
  refine ⟨h', p, b, hholds, hkept, hlarge, fun hthis hrest => ?_⟩
  refine .load hthis rfl ?_
  refine .getField hslot ?_
  exact .call hcalled hbody hrun hrest

theorem completes_address {data : Value} (hdata : h.statics (dataMember owner) = data)
    (hslot : h.field? o (indexMember owner) = some (.int (.ofNat slot)))
    (hthis : locals 0 = some (.ref (some o)))
    (hrest : P.Completes code
      ⟨.int (.ofNat (slot * stride + offset)) :: data :: stack, locals, h⟩ r h') :
    P.Completes (addressCode owner (.ofNat stride) (.ofNat offset) ++ code) ⟨stack, locals, h⟩ r
      h' := by
  have haddress : Int32.ofNat slot * .ofNat stride + .ofNat offset =
      .ofNat (slot * stride + offset) := by
    rw [Int32.ofNat_add, Int32.ofNat_mul]
  refine .getStatic hdata ?_
  refine .load hthis rfl ?_
  refine .getField hslot ?_
  refine .plain rfl rfl ?_
  refine .plain rfl rfl ?_
  refine .plain rfl rfl ?_
  exact .plain rfl (by rw [← haddress]; rfl) hrest

/-- **The getter of a field of fixed size** returns what the memory holds. -/
theorem exists_get {kind : ValueKind} (hcapacity : HasCapacity P owner stride)
    (hready : Ready owner h) (hslot : h.field? o (indexMember owner) = some (.int (.ofNat slot)))
    (hfits : (slot + 1) * stride < 2 ^ 31) (hkind : kind.isPrimitive)
    (hend : slot * stride + offset + kind.cell.width ≤ (slot + 1) * stride) : ∃ h',
      Ready owner h' ∧ Preserves owner h h' ∧
        P.Completes (getterCode owner (.ofNat stride) (.ofNat offset) kind)
          ⟨[], localsOf [.ref (some o)], h⟩
          (some ((memory owner h).cell kind.cell (slot * stride + offset))) h' := by
  obtain ⟨h', p, b, hholds, hkept, hlarge, hrun⟩ := exists_ensured hcapacity hready hslot hfits
  have hslot' := (hkept.instances.fields o _).trans hslot
  have htype : ((memory owner h).cell kind.cell (slot * stride + offset)).type = kind.type :=
    (ValueKind.type_decode _ _).trans (ValueKind.type_cell hkind)
  refine ⟨h', hholds.ready, hkept, hrun rfl (completes_address hholds.data hslot' rfl ?_)⟩
  rw [← hkept.memory] at htype ⊢
  rw [ref_readMethod]
  exact .native (.read kind.cell) (hholds.run?_read (by omega)) (.ret htype)

/-- **The setter of a field of fixed size** writes a value into the memory. -/
theorem exists_set {kind : ValueKind} {v : Value} {n : Nat} (hcapacity : HasCapacity P owner stride)
    (hready : Ready owner h) (hslot : h.field? o (indexMember owner) = some (.int (.ofNat slot)))
    (hfits : (slot + 1) * stride < 2 ^ 31) (htype : v.type = kind.type)
    (hencode : kind.cell.encode? v = some n)
    (hend : slot * stride + offset + kind.cell.width ≤ (slot + 1) * stride) : ∃ h',
      Ready owner h' ∧ h.SameInstances h' ∧ memory owner h' =
        (memory owner h).write (slot * stride + offset) (BigEndian.encode kind.cell.width n) ∧
        P.Completes (setterCode owner (.ofNat stride) (.ofNat offset) kind)
          ⟨[], localsOf [.ref (some o), v], h⟩ none h' := by
  obtain ⟨h₁, p, b, hholds, hkept, hlarge, hrun⟩ := exists_ensured hcapacity hready hslot hfits
  have hslot₁ := (hkept.instances.fields o _).trans hslot
  obtain ⟨h', hready', hsame, hmemory, hwrite⟩ :=
    hholds.exists_write (Nat.le_trans hend hlarge) hencode
  rw [hkept.memory] at hmemory
  refine ⟨h', hready', hkept.instances.trans hsame, hmemory, ?_⟩
  refine hrun rfl (completes_address hholds.data hslot₁ rfl ?_)
  refine .load rfl htype ?_
  rw [ref_writeMethod]
  refine .native (.write kind.cell) hwrite ?_
  exact .plain rfl rfl .ret_none

end

/-! ### Nested components -/

/-- Nothing that belongs to the class has changed. -/
structure Leaves (owner : String) (layout : PackedLayout) (h h' : Heap) : Prop
    extends SameBuffer owner h h' where
  /-- The classes of all objects stay. -/
  classes : ∀ o className, h.class? o = some className → h'.class? o = some className
  /-- The fields of the class stay. -/
  fields : ∀ o m v, m.owner = owner → h.field? o m = some v → h'.field? o m = some v
  /-- New objects have nothing that stands for a nested component, or something of its type. -/
  flyweights : Flyweights owner layout h → Flyweights owner layout h'

/-- The constructors of nested components leave alone what belongs to the class. -/
def Quiet (owner : String) (layout : PackedLayout) (construct : Constructors) : Prop :=
  ∀ nested, (∃ f ∈ layout.fields, f.kind = .object nested) →
    ∀ o h, Leaves owner layout h (construct nested o h)

section

variable {P : Program} {owner nested : String} {layout : PackedLayout} {f : PackedField}
  {h h' h'' : Heap} {o : Nat} {m : MemberRef} {v : Value}

theorem Leaves.trans (hfirst : Leaves owner layout h h') (hthen : Leaves owner layout h' h'') :
    Leaves owner layout h h'' :=
  ⟨hfirst.toSameBuffer.trans hthen.toSameBuffer,
    fun o c hc => hthen.classes o c (hfirst.classes o c hc),
    fun o m v hm hv => hthen.fields o m v hm (hfirst.fields o m v hm hv),
    fun hfly => hthen.flyweights (hfirst.flyweights hfly)⟩

theorem Leaves.stays (hleaves : Leaves owner layout h h') : Stays owner layout h h' :=
  ⟨fun o v hv => hleaves.fields o _ v rfl hv, hleaves.classes, hleaves.flyweights⟩

theorem initial_flyweight (hkind : f.kind = .object nested) :
    Value.initial (flyweightMember owner f).descriptor = .null := by
  simp [flyweightMember, hkind, ValueKind.descriptor, Value.initial, String.toList_append]

theorem flyweightMember_ne_indexMember (owner owner' : String) (f : PackedField) :
    flyweightMember owner f ≠ indexMember owner' := by
  intro heq
  have hname : flyweightName f.name = indexField := congrArg MemberRef.name heq
  have hlist := congrArg String.toList hname
  simp [flyweightName, indexField, String.toList_append] at hlist

theorem nested_eq_of_flyweightMember_eq {g : PackedField} {nested' : String}
    (heq : flyweightMember owner g = flyweightMember owner f) (hkind : f.kind = .object nested)
    (hkind' : g.kind = .object nested') : nested' = nested := by
  have hdescriptor : g.kind.descriptor = f.kind.descriptor := congrArg MemberRef.descriptor heq
  rw [hkind, hkind'] at hdescriptor
  have hlist := congrArg String.toList hdescriptor
  simp only [ValueKind.descriptor, String.toList_append] at hlist
  exact String.toList_inj.1 (List.append_cancel_left (List.append_cancel_right hlist))

/-- A new object has not been touched yet, and the others stay as they are. -/
theorem leaves_create (className : String) : Leaves owner layout h (h.create className).2 := by
  -- whatever is found at a number belongs to an older object
  have hother {β : Type} {look : Object → Option β} {b : β} {o : Nat}
      (hb : h.objects[o]?.bind look = some b) : o ≠ h.objects.length :=
    Nat.ne_of_lt (Heap.lt_of_bind hb)
  refine ⟨⟨rfl, ?_⟩, ?_, ?_, ?_⟩
  · intro o _
    rw [Heap.buffer?_create]
    by_cases heq : o = h.objects.length
    · rw [if_pos heq, heq, Heap.buffer?, List.getElem?_eq_none (Nat.le_refl _)]
      rfl
    · rw [if_neg heq]
  · intro o c hc
    rw [Heap.class?_create, if_neg (hother hc), hc]
  · intro o m v _ hv
    rw [Heap.field?_create, if_neg (hother hv), hv]
  · intro hfly g hg nested hkind o v hv
    rw [Heap.field?_create] at hv
    by_cases heq : o = h.objects.length
    · rw [if_pos heq, initial_flyweight hkind] at hv
      exact .inl (Option.some_inj.1 hv).symm
    · rw [if_neg heq] at hv
      rcases hfly g hg nested hkind o v hv with hnull | ⟨p, hp, hc⟩
      · exact .inl hnull
      · refine .inr ⟨p, hp, ?_⟩
        rw [Heap.class?_create, if_neg (hother hc), hc]

/-- Writing a field that is not the number of a slot of the class. -/
theorem exists_putField (layout : PackedLayout) (w : Value) (hv : h.field? o m = some v)
    (hm : m ≠ indexMember owner)
    (hfly : ∀ g ∈ layout.fields, ∀ nested, g.kind = .object nested → flyweightMember owner g = m →
      ∃ p, w = .ref (some p) ∧ h.class? p = some nested) : ∃ h', h.setField? o m w = some h' ∧
      SameBuffer owner h h' ∧ Stays owner layout h h' ∧ h'.field? o m = some w := by
  obtain ⟨h', hwrite, hstatics, hfields, hclasses, hbuffers⟩ := Heap.exists_setField? hv w
  refine ⟨h', hwrite, ⟨by rw [hstatics], fun p _ => hbuffers p⟩,
    ⟨?_, ?_, ?_⟩,
    by rw [hfields, if_pos ⟨rfl, rfl⟩]⟩
  · intro p v hv
    rw [hfields, if_neg fun heq => hm heq.2.symm, hv]
  · intro p c hc
    rw [hclasses, hc]
  · intro hold g hg nested hkind p v hv
    rw [hfields] at hv
    -- the field that is written is that of a nested component, or another one
    by_cases heq : p = o ∧ flyweightMember owner g = m
    · rw [if_pos heq] at hv
      obtain ⟨q, hq, hc⟩ := hfly g hg nested hkind heq.2
      exact .inr ⟨q, (Option.some_inj.1 hv).symm.trans hq, (hclasses q).trans hc⟩
    · rw [if_neg heq] at hv
      rcases hold g hg nested hkind p v hv with hnull | ⟨q, hq, hc⟩
      · exact .inl hnull
      · exact .inr ⟨q, hq, (hclasses q).trans hc⟩

/-- There is an object for the nested component after the branch, a new one if there was none. -/
theorem exists_flyweight {className : String} (hf : f ∈ layout.fields)
    (hkind : f.kind = .object nested) (hquiet : Quiet owner layout P.construct)
    (hfly : Flyweights owner layout h) (hclass : h.class? o = some className) : ∃ h' q,
      SameBuffer owner h h' ∧ Stays owner layout h h' ∧ h'.class? q = some nested ∧
        h'.field? o (flyweightMember owner f) = some (.ref (some q)) ∧
          ∀ {code stack locals r h''}, locals 0 = some (.ref (some o)) →
            P.Completes code ⟨stack, locals, h'⟩ r h'' →
              P.Completes (.plain (.load .ref 0) :: .plain (.getField (flyweightMember owner f)) ::
                .guarded .nonNull (createFlyweight owner f nested) :: code) ⟨stack, locals, h⟩ r
                  h'' := by
  obtain ⟨v, hv⟩ := Heap.exists_field? hclass (flyweightMember owner f)
  rcases hfly f hf nested hkind o v hv with rfl | ⟨q, rfl, hq⟩
  · -- nothing is there yet, so the branch is entered
    let q := h.objects.length
    let h₁ := (h.create nested).2
    let h₂ := P.construct nested q h₁
    have hleaves : Leaves owner layout h h₂ :=
      (leaves_create nested).trans (hquiet nested ⟨f, hf, hkind⟩ q h₁)
    have hq : h₂.class? q = some nested := by
      refine (hquiet nested ⟨f, hf, hkind⟩ q h₁).classes q nested ?_
      rw [Heap.class?_create, if_pos rfl]
    obtain ⟨h', hwrite, hsame, hstays, hv'⟩ := exists_putField layout (.ref (some q))
      (hleaves.fields o _ _ rfl hv) (flyweightMember_ne_indexMember owner owner f)
      fun g hg nested' hkind' heq =>
        ⟨q, rfl, nested_eq_of_flyweightMember_eq heq hkind hkind' ▸ hq⟩
    refine ⟨h', q, hleaves.toSameBuffer.trans hsame, hleaves.stays.trans hstays,
      hstays.classes q nested hq, hv', fun hthis hrest => ?_⟩
    have hfind := Native.find?_special (constructorCall nested)
    refine .load hthis rfl (.getField hv (.enter rfl ?_))
    refine .load hthis rfl ?_
    refine .plain rfl rfl ?_
    refine .plain rfl rfl ?_
    refine .plain rfl (by simp only [Instr.run?, hfind]; rfl) ?_
    exact .putField hwrite hrest
  · -- an object is there, so the branch is skipped
    refine ⟨h, q, .refl owner h, .refl owner layout h, hq, hv, fun hthis hrest => ?_⟩
    exact .load hthis rfl (.getField hv (.skip rfl hrest))

variable {slot stride offset : Nat}

/-- **The getter of a nested component** returns an object of its type, in the slot that the memory
holds. -/
theorem exists_nestedGet (hcapacity : HasCapacity P owner stride)
    (hready : Ready owner h) (hslot : h.field? o (indexMember owner) = some (.int (.ofNat slot)))
    (hfits : (slot + 1) * stride < 2 ^ 31)
    (hend : slot * stride + offset + Cell.int.width ≤ (slot + 1) * stride)
    (hf : f ∈ layout.fields) (hkind : f.kind = .object nested) (hne : nested ≠ owner)
    (hquiet : Quiet owner layout P.construct) (hfly : Flyweights owner layout h) : ∃ h' q,
      Ready owner h' ∧ memory owner h' = memory owner h ∧ Stays owner layout h h' ∧
        h'.class? q = some nested ∧ h'.field? q (indexMember nested) =
          some ((memory owner h).cell .int (slot * stride + offset)) ∧
          P.Completes (nestedGetterCode owner (.ofNat stride) (.ofNat offset) f nested)
            ⟨[], localsOf [.ref (some o)], h⟩ (some (.ref (some q))) h' := by
  obtain ⟨h₁, p, b, hholds, hkept, hlarge, hensure⟩ := exists_ensured hcapacity hready hslot hfits
  have hstays₁ : Stays owner layout h h₁ := .of_sameInstances hkept.instances
  have hslot₁ := hstays₁.slots o _ hslot
  obtain ⟨className, hclass⟩ := Heap.exists_class? hslot₁
  obtain ⟨h₂, q, hsame₂, hstays₂, hq₂, hv, hcreate⟩ :=
    exists_flyweight (P := P) hf hkind hquiet (hstays₁.flyweights hfly) hclass
  have hholds₂ := hsame₂.holds hholds
  have hmemory₂ : memory owner h₂ = memory owner h :=
    (hsame₂.memory hholds.ready).trans hkept.memory
  -- the class of the nested component is another, so no slot of the owner is touched
  obtain ⟨w, hw⟩ := Heap.exists_field? hq₂ (indexMember nested)
  have hother : indexMember nested ≠ indexMember owner := fun heq =>
    hne (congrArg MemberRef.owner heq)
  obtain ⟨h', hwrite, hsame, hstays, hv'⟩ := exists_putField layout
    ((memory owner h₂).cell .int (slot * stride + offset)) hw hother
    fun g _ _ _ heq => absurd heq (flyweightMember_ne_indexMember owner nested g)
  refine ⟨h', q, hsame.ready hholds₂.ready, (hsame.memory hholds₂.ready).trans hmemory₂,
    hstays₁.trans (hstays₂.trans hstays), hstays.classes q nested hq₂, hmemory₂ ▸ hv', ?_⟩
  refine hensure rfl (hcreate rfl ?_)
  refine .load rfl rfl (.getField hv (.plain rfl rfl ?_))
  refine completes_address hholds₂.data (hstays₂.slots o _ hslot₁) rfl ?_
  rw [hkind, ref_readMethod]
  refine .native (.read .int) (hholds₂.run?_read (Nat.le_trans hend hlarge)) ?_
  exact .putField hwrite (.ret rfl)

/-- **The setter of a nested component** writes the slot that its argument is in. -/
theorem exists_nestedSet {q n : Nat} {v : Value} (hcapacity : HasCapacity P owner stride)
    (hready : Ready owner h) (hslot : h.field? o (indexMember owner) = some (.int (.ofNat slot)))
    (hfits : (slot + 1) * stride < 2 ^ 31)
    (hend : slot * stride + offset + Cell.int.width ≤ (slot + 1) * stride)
    (hkind : f.kind = .object nested) (hv : h.field? q (indexMember nested) = some v)
    (hencode : Cell.int.encode? v = some n) : ∃ h',
      Ready owner h' ∧ h.SameInstances h' ∧ memory owner h' =
        (memory owner h).write (slot * stride + offset) (BigEndian.encode Cell.int.width n) ∧
        P.Completes (nestedSetterCode owner (.ofNat stride) (.ofNat offset) f nested)
          ⟨[], localsOf [.ref (some o), .ref (some q)], h⟩ none h' := by
  obtain ⟨h₁, p, b, hholds, hkept, hlarge, hrun⟩ := exists_ensured hcapacity hready hslot hfits
  have hslot₁ := (hkept.instances.fields o _).trans hslot
  have hv₁ := (hkept.instances.fields q _).trans hv
  obtain ⟨h', hready', hsame, hmemory, hwrite⟩ :=
    hholds.exists_write (Nat.le_trans hend hlarge) hencode
  rw [hkept.memory] at hmemory
  refine ⟨h', hready', hkept.instances.trans hsame, hmemory, ?_⟩
  refine hrun rfl (completes_address hholds.data hslot₁ rfl ?_)
  refine .load rfl (by rw [hkind]; rfl) ?_
  refine .getField hv₁ ?_
  rw [ref_writeMethod]
  refine .native (.write .int) hwrite ?_
  exact .plain rfl rfl .ret_none

end

end Packed

end ClassWeave
