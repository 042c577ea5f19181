import ClassWeave.Proofs.Packed.Accessors
import ClassWeave.Proofs.Packed.Apply
import ClassWeave.Proofs.Packed.Layout
import ClassWeave.Weaving.Validation

/-!
# Packed storage behaves like fields

The accessors of a packed class are called any number of times, in any order, on objects in any
slots.  A getter always returns what was last put into the field of the slot, and zero before.

* `Packed.Store` : what the fields of all slots hold.
* `Packed.Access` : a place where an accessor can be called.
* `Packed.Run` : calls of accessors in a row, with other code running in between.
* `Packed.Invariant`, `Packed.invariant_of_run` : the memory holds what the fields do.
* `Packed.exists_returns_getter`, `exists_returns_setter` : every call of a run completes, and
  getters return what was stored.
-/

namespace ClassWeave

namespace Packed

/-! ### Fields -/

/-- What the fields hold, by the number of the slot and the position of the field in the layout.  A
field with a nested component holds the number of its slot. -/
abbrev Store := Nat → Nat → Value

namespace Store

/-- All fields hold zero. -/
def zero (layout : PackedLayout) : Store := fun _ k =>
  match layout.fields[k]? with
  | some f => f.kind.cell.type.zero
  | none => .null

/-- A field is given another value. -/
def set (store : Store) (slot k : Nat) (v : Value) : Store := fun slot' k' =>
  if slot' = slot ∧ k' = k then v else store slot' k'

end Store

/-- The number of the slot that an object is in, unless it is negative. -/
def slot? (owner : String) (h : Heap) (o : Nat) : Option Nat :=
  match h.field? o (indexMember owner) with
  | some (.int i) => if 0 ≤ i.toInt then some i.toInt.toNat else none
  | _ => none

/-- An argument is in the range of a kind, and putting it into a field stores a value: itself, or
the number of the slot that a nested component is in. -/
def Stores (h : Heap) (kind : ValueKind) (argument v : Value) : Prop :=
  match kind with
  | .object nested => ∃ q i, argument = .ref (some q) ∧
      h.field? q (indexMember nested) = some (.int i) ∧ v = .int i
  | kind => kind.InRange argument ∧ v = argument

/-- A result shows a stored value: it is the value, or an object for the nested component that is in
the slot of this number. -/
def Shows (h : Heap) (kind : ValueKind) (result v : Value) : Prop :=
  match kind with
  | .object nested => ∃ q, result = .ref (some q) ∧ h.class? q = some nested ∧
      h.field? q (indexMember nested) = some v
  | _ => result = v

/-! ### Runs -/

/-- The accessors of a field. -/
structure Accessors where
  /-- The method that reads the field. -/
  getter : Member
  /-- The method that writes the field. -/
  setter : Member

/-- The new methods of a packed class. -/
structure Generated where
  /-- The method that sets up the class, if it is new. -/
  init? : Option Member
  /-- The method that makes room for a slot. -/
  ensure : Member
  /-- The accessors of all fields of the layout. -/
  accessors : List Accessors

namespace Generated

/-- The new methods in their order. -/
def methods (g : Generated) : List Member :=
  g.init?.toList ++ g.ensure :: g.accessors.flatMap fun a => [a.getter, a.setter]

end Generated

/-- A method returns when it is called. -/
def Returns (P : Program) (m : Member) (arguments : List Value) (h : Heap) (result? : Option Value)
    (h' : Heap) : Prop :=
  ∃ body, m.code? = some body ∧ P.Calls body arguments h result? h'

/-- Nothing of the class has been used yet. -/
structure Fresh (owner : String) (layout : PackedLayout) (h : Heap) : Prop where
  /-- There is no buffer. -/
  data : h.statics (dataMember owner) = .null
  /-- What stands for nested components is of their types. -/
  flyweights : Flyweights owner layout h

/-- The class is set up before its first use. -/
def Begins (P : Program) (g : Generated) (h h' : Heap) : Prop :=
  match g.init? with
  | some init => Returns P init [] h none h'
  | none => h' = h

/-- Other code runs.  It can move objects to other slots and create new ones, but knows nothing of
the private fields of the class. -/
structure Elsewhere (owner : String) (layout : PackedLayout) (h h' : Heap) : Prop
    extends SameBuffer owner h h' where
  /-- What stands for nested components is of their types. -/
  flyweights : Flyweights owner layout h → Flyweights owner layout h'

/-- A place where an accessor can be called: a field of an object whose slot is not so far behind
that the buffer could not reach it. -/
structure Access (P : Program) (layout : PackedLayout) (g : Generated) (h : Heap) where
  /-- The object. -/
  object : Nat
  /-- The number of its slot. -/
  slot : Nat
  /-- The position of the field in the layout. -/
  position : Nat
  /-- The field. -/
  field : PackedField
  /-- Its accessors. -/
  accessors : Accessors
  slot_eq : slot? P.owner h object = some slot
  fits : (slot + 1) * layout.stride ≤ 2 ^ 31 - 1
  field_eq : layout.fields[position]? = some field
  accessors_eq : g.accessors[position]? = some accessors

/-- A run of a packed class: what its fields ought to hold, and the heap. -/
inductive Run (P : Program) (layout : PackedLayout) (g : Generated) : Store → Heap → Prop where
  /-- The class is set up. -/
  | start {h h' : Heap} : Fresh P.owner layout h → Begins P g h h' →
      Run P layout g (.zero layout) h'
  /-- A getter is called. -/
  | get {store : Store} {h h' : Heap} {result? : Option Value} (x : Access P layout g h) :
      Run P layout g store h → Returns P x.accessors.getter [.ref (some x.object)] h result? h' →
      Run P layout g store h'
  /-- A setter is called with an argument. -/
  | set {store : Store} {h h' : Heap} {argument v : Value} {result? : Option Value}
      (x : Access P layout g h) : Run P layout g store h → Stores h x.field.kind argument v →
      Returns P x.accessors.setter [.ref (some x.object), argument] h result? h' →
      Run P layout g (store.set x.slot x.position v) h'
  /-- Other code runs. -/
  | elsewhere {store : Store} {h h' : Heap} : Run P layout g store h →
      Elsewhere P.owner layout h h' → Run P layout g store h'

/-! ### What every call keeps -/

/-- The memory holds what the fields do. -/
structure Invariant (owner : String) (layout : PackedLayout) (store : Store) (h : Heap) : Prop where
  /-- The class has a buffer, or none yet. -/
  ready : Ready owner h
  /-- What stands for nested components is of their types. -/
  flyweights : Flyweights owner layout h
  /-- Every field of every slot holds its value. -/
  holds : ∀ slot k f, layout.fields[k]? = some f →
    (memory owner h).cell f.kind.cell (layout.address slot f) = store slot k

/-- The new methods are as designed. -/
structure Generated.Realized (framed : Bool) (pool : ConstantPool) (owner : String)
    (layout : PackedLayout) (g : Generated) : Prop where
  /-- The method that sets up the class, whose buffer has an integer as its size. -/
  init : ∀ m, g.init? = some m → (staticInitDesign owner layout).Realized framed pool m ∧
    layout.stride * initialSlots < 2 ^ 31
  /-- The method that makes room for a slot. -/
  ensure : (capacityDesign owner layout).Realized framed pool g.ensure
  /-- The accessors of all fields. -/
  accessors : List.Forall₂ (fun f a => (getterDesign owner layout f).Realized framed pool a.getter ∧
    (setterDesign owner layout f).Realized framed pool a.setter) layout.fields g.accessors

/-- The program has the new methods, and the layout is made of fields that can be packed. -/
structure Implements (framed : Bool) (P : Program) (layout : PackedLayout) (g : Generated) :
    Prop where
  /-- The layout is that of some fields. -/
  placed : ∃ view, layout = .ofFields view
  /-- The fields can be packed. -/
  kinds : ∃ index, ∀ f ∈ layout.fields, f.kind.isPackable index P.owner
  /-- The new methods are those of the program. -/
  methods : P.methods = g.methods
  /-- They are as designed. -/
  realized : g.Realized framed P.pool P.owner layout
  /-- The constructors of nested components leave the class alone. -/
  quiet : Quiet P.owner layout P.construct

section

variable {framed : Bool} {P : Program} {owner : String} {layout : PackedLayout} {g : Generated}
  {store : Store} {h h' : Heap} {o slot k : Nat} {f : PackedField} {a : Accessors}

theorem slot?_of_stays (hslot : slot? owner h o = some slot) (hstays : Stays owner layout h h') :
    slot? owner h' o = some slot := by
  unfold slot? at hslot ⊢
  split at hslot
  · rename_i i hfield
    rw [hstays.slots o (.int i) hfield]
    exact hslot
  · cases hslot

/-- The same place after an object stayed in its slot. -/
def Access.after (x : Access P layout g h) (hstays : Stays P.owner layout h h') :
    Access P layout g h' :=
  { x with slot_eq := slot?_of_stays x.slot_eq hstays }

/-- The number of a slot is an integer that is not negative. -/
theorem field?_of_slot? (hslot : slot? owner h o = some slot) :
    h.field? o (indexMember owner) = some (.int (.ofNat slot)) := by
  unfold slot? at hslot
  split at hslot
  · rename_i i hfield
    split at hslot
    · rename_i hnonneg
      have hlt := i.toInt_lt
      obtain rfl := Option.some_inj.1 hslot
      have hi : Int32.ofNat i.toInt.toNat = i := by
        refine Int32.toInt_inj.1 ?_
        rw [Int32.toInt_ofNat_of_lt (by omega)]
        omega
      rw [hfield, hi]
    · cases hslot
  · cases hslot

theorem exists_code? {p : ConstantPool} {d : MethodDesign} {m : Member}
    (hm : d.Realized framed p m) :
    ∃ body, m.code? = some body ∧ Encodes p d.code body.instructions := by
  obtain ⟨name, body, htable, -, hbody⟩ := hm.body
  refine ⟨body, ?_, hbody.encodes⟩
  rw [Member.code?, htable]
  rfl

theorem returns_of_completes {d : MethodDesign} {m : Member} {arguments : List Value}
    {r : Option Value} (hm : d.Realized framed P.pool m)
    (hcode : P.Completes d.code ⟨[], localsOf arguments, h⟩ r h') :
    Returns P m arguments h r h' := by
  obtain ⟨body, hbody, hencodes⟩ := exists_code? hm
  exact ⟨body, hbody, Program.Completes.calls hencodes hcode⟩

theorem Returns.unique {m : Member} {arguments : List Value} {r r' : Option Value} {h'' : Heap}
    (hr : Returns P m arguments h r h') (hr' : Returns P m arguments h r' h'') :
    r = r' ∧ h' = h'' := by
  obtain ⟨body, hbody, hcalls⟩ := hr
  obtain ⟨body', hbody', hcalls'⟩ := hr'
  obtain rfl := Option.some_inj.1 (hbody.symm.trans hbody')
  exact hcalls.unique hcalls'

/-- Fields are of fixed size, or nested components of another class. -/
theorem isPrimitive_or_nested {index : TypeIndex} {kind : ValueKind}
    (hkind : kind.isPackable index owner) :
    kind.isPrimitive ∨ ∃ nested, kind = .object nested ∧ nested ≠ owner := by
  cases kind with
  | object nested =>
    simp only [ValueKind.isPackable, Bool.and_eq_true, bne_iff_ne] at hkind
    exact .inr ⟨nested, rfl, hkind.1⟩
  | array => cases hkind
  | _ => exact .inl rfl

theorem ne_object_of_isPrimitive {kind : ValueKind} (hkind : kind.isPrimitive) (nested : String) :
    kind ≠ .object nested := by
  rintro rfl
  cases hkind

theorem shows_iff {kind : ValueKind} {result v : Value} (hkind : kind.isPrimitive) :
    Shows h kind result v ↔ result = v := by
  unfold Shows
  cases kind with
  | object => cases hkind
  | _ => exact Iff.rfl

theorem stores_iff {kind : ValueKind} {argument v : Value} (hkind : kind.isPrimitive) :
    Stores h kind argument v ↔ kind.InRange argument ∧ v = argument := by
  unfold Stores
  cases kind with
  | object => cases hkind
  | _ => exact Iff.rfl

/-- A class that is not used yet has a memory of zeros. -/
theorem invariant_of_null (hnull : h.statics (dataMember owner) = .null)
    (hfly : Flyweights owner layout h) : Invariant owner layout (.zero layout) h := by
  refine ⟨.inl hnull, hfly, fun slot k f hf => ?_⟩
  have hzero : memory owner h = fun _ => 0 := by
    rw [memory_of_null hnull]
    rfl
  rw [hzero, Memory.cell_zero, Store.zero, hf]

theorem Invariant.of_preserved (hinv : Invariant owner layout store h) (hready : Ready owner h')
    (hmemory : memory owner h' = memory owner h) (hfly : Flyweights owner layout h') :
    Invariant owner layout store h' :=
  ⟨hready, hfly, fun slot k f hf => by rw [hmemory, hinv.holds slot k f hf]⟩

/-- Writing the bytes of a value is giving it to the field. -/
theorem Invariant.of_written {n : Nat} {v : Value} (hlayout : ∃ view, layout = .ofFields view)
    (hinv : Invariant owner layout store h) (hready : Ready owner h')
    (hfly : Flyweights owner layout h') (hf : layout.fields[k]? = some f)
    (hmemory : memory owner h' = (memory owner h).write (layout.address slot f)
      (BigEndian.encode f.kind.cell.width n))
    (hn : n < 256 ^ f.kind.cell.width) (hv : f.kind.cell.decode n = v) :
    Invariant owner layout (store.set slot k v) h' := by
  obtain ⟨view, rfl⟩ := hlayout
  refine ⟨hready, hfly, fun slot' k' f' hf' => ?_⟩
  rw [hmemory, Store.set]
  -- the field itself holds the value; the bytes of every other field lie elsewhere
  by_cases heq : slot' = slot ∧ k' = k
  · obtain ⟨rfl, rfl⟩ := heq
    obtain rfl := Option.some_inj.1 (hf.symm.trans hf')
    rw [if_pos ⟨rfl, rfl⟩, Memory.cell_write hn, hv]
  · have hsize : f.size = f.kind.cell.width := by
      rw [(PackedLayout.mem_ofFields (List.mem_of_getElem? hf)).1, ValueKind.width_cell]
    have hsize' : f'.size = f'.kind.cell.width := by
      rw [(PackedLayout.mem_ofFields (List.mem_of_getElem? hf')).1, ValueKind.width_cell]
    have hdisjoint := PackedLayout.disjoint_address hf' hf heq
    rw [hsize, hsize'] at hdisjoint
    rw [if_neg heq, Memory.cell_write_of_disjoint (by rwa [BigEndian.length_encode])]
    exact hinv.holds slot' k' f' hf'

/-- Every field ends within its slot. -/
theorem Implements.end_le (hg : Implements framed P layout g) (hf : layout.fields[k]? = some f)
    (slot : Nat) :
    slot * layout.stride + f.offset + f.kind.cell.width ≤ (slot + 1) * layout.stride := by
  obtain ⟨view, rfl⟩ := hg.placed
  have hmem := List.mem_of_getElem? hf
  have hsize := (PackedLayout.mem_ofFields hmem).1
  rw [← ValueKind.width_cell] at hsize
  rw [← hsize]
  exact PackedLayout.address_add_size_le hmem slot

/-- The accessors of a field are as designed. -/
theorem Implements.accessors (hg : Implements framed P layout g) (hf : layout.fields[k]? = some f)
    (ha : g.accessors[k]? = some a) :
    (getterDesign P.owner layout f).Realized framed P.pool a.getter ∧
      (setterDesign P.owner layout f).Realized framed P.pool a.setter := by
  obtain ⟨hk, rfl⟩ := List.getElem?_eq_some_iff.1 hf
  obtain ⟨hk', rfl⟩ := List.getElem?_eq_some_iff.1 ha
  exact hg.realized.accessors.get hk hk'

/-- The method that makes room for a slot is found among the new ones. -/
theorem Implements.capacity (hg : Implements framed P layout g) :
    HasCapacity P P.owner layout.stride := by
  have hensure := hg.realized.ensure
  obtain ⟨body, hbody, hencodes⟩ := exists_code? hensure
  refine ⟨body, ?_, hencodes⟩
  have hother : ∀ n ∈ Native.all, n.ref.name ≠ capacityMethod := by decide +kernel
  have hown : (Native.find? .static (capacityCall P.owner)).isNone ∧
      (capacityCall P.owner).owner = P.owner := by
    rw [Native.find?_of_name_ne hother]
    exact ⟨rfl, rfl⟩
  have hcount : parameterCount false capacityDescriptor.toList = 1 := by decide
  have hname : g.ensure.nameIn P.pool = .ok capacityMethod := hensure.name
  have hdescriptor : g.ensure.descriptorIn P.pool = .ok capacityDescriptor := hensure.descriptor
  have hfind : P.methods.find? (fun m => m.nameIn P.pool == .ok capacityMethod &&
      m.descriptorIn P.pool == .ok capacityDescriptor) = some g.ensure := by
    -- only the method that sets up the class may come before it, and that has another name
    rw [hg.methods, Generated.methods]
    cases hinit : g.init? with
    | none => simp [hname, hdescriptor]
    | some m =>
      have hskip : m.nameIn P.pool = .ok staticInitName := (hg.realized.init m hinit).1.name
      have hne : staticInitName ≠ capacityMethod := by decide
      simp [hname, hdescriptor, hskip, hne]
  unfold Program.called?
  simp only [if_pos hown]
  simp [capacityCall, hfind, hbody, hcount]

/-! ### Every call keeps it -/

/-- **A getter** returns what the field of the slot holds. -/
theorem exists_returns_getter (hg : Implements framed P layout g)
    (hinv : Invariant P.owner layout store h) (x : Access P layout g h) : ∃ result h',
      Returns P x.accessors.getter [.ref (some x.object)] h (some result) h' ∧
        Shows h' x.field.kind result (store x.slot x.position) ∧ Stays P.owner layout h h' ∧
          Invariant P.owner layout store h' := by
  obtain ⟨o, slot, k, f, a, hslot, hfits, hf, ha⟩ := x
  obtain ⟨index, hkinds⟩ := hg.kinds
  have hmem := List.mem_of_getElem? hf
  have hslot := field?_of_slot? hslot
  have hlimit : (slot + 1) * layout.stride < 2 ^ 31 := by omega
  have hend := hg.end_le hf slot
  have hvalue := hinv.holds slot k f hf
  have hgetter := (hg.accessors hf ha).1
  rcases isPrimitive_or_nested (hkinds f hmem) with hkind | ⟨nested, hkind, hne⟩
  · obtain ⟨h', hready, hkept, hrun⟩ := exists_get hg.capacity hinv.ready hslot hlimit hkind hend
    have hstays : Stays P.owner layout h h' := .of_sameInstances hkept.instances
    have hgetter : Returns P a.getter [.ref (some o)] h _ h' := returns_of_completes hgetter
      (getterDesign_code (ne_object_of_isPrimitive hkind) ▸ hrun)
    exact ⟨_, h', hgetter, (shows_iff hkind).2 hvalue, hstays,
      hinv.of_preserved hready hkept.memory (hstays.flyweights hinv.flyweights)⟩
  · -- a nested component: the memory holds the number of its slot
    rw [hkind] at hend hvalue
    obtain ⟨h', q, hready, hmemory, hstays, hclass, hq, hrun⟩ :=
      exists_nestedGet hg.capacity hinv.ready hslot hlimit hend hmem hkind hne hg.quiet
        hinv.flyweights
    have hgetter := returns_of_completes hgetter (getterDesign_code_object hkind ▸ hrun)
    refine ⟨_, h', hgetter, ?_, hstays,
      hinv.of_preserved hready hmemory (hstays.flyweights hinv.flyweights)⟩
    rw [hkind]
    exact ⟨q, rfl, hclass, hq.trans (congrArg some hvalue)⟩

/-- **A setter** gives the field of the slot another value. -/
theorem exists_returns_setter {argument v : Value} (hg : Implements framed P layout g)
    (hinv : Invariant P.owner layout store h) (x : Access P layout g h)
    (hv : Stores h x.field.kind argument v) : ∃ h',
      Returns P x.accessors.setter [.ref (some x.object), argument] h none h' ∧
        Stays P.owner layout h h' ∧
          Invariant P.owner layout (store.set x.slot x.position v) h' := by
  obtain ⟨o, slot, k, f, a, hslot, hfits, hf, ha⟩ := x
  obtain ⟨index, hkinds⟩ := hg.kinds
  have hmem := List.mem_of_getElem? hf
  have hslot := field?_of_slot? hslot
  have hlimit : (slot + 1) * layout.stride < 2 ^ 31 := by omega
  have hend := hg.end_le hf slot
  have hsetter := (hg.accessors hf ha).2
  rcases isPrimitive_or_nested (hkinds f hmem) with hkind | ⟨nested, hkind, hne⟩
  · obtain ⟨hrange, rfl⟩ := (stores_iff hkind).1 hv
    obtain ⟨n, hencode, hn, hdecode⟩ := ValueKind.exists_encode hrange
    have htype : v.type = f.kind.type := by
      rw [← hdecode, ValueKind.type_decode, ValueKind.type_cell hkind]
    obtain ⟨h', hready, hsame, hmemory, hrun⟩ :=
      exists_set hg.capacity hinv.ready hslot hlimit htype hencode hend
    have hstays : Stays P.owner layout h h' := .of_sameInstances hsame
    have hsetter := returns_of_completes hsetter
      (setterDesign_code (ne_object_of_isPrimitive hkind) ▸ hrun)
    exact ⟨h', hsetter, hstays, hinv.of_written hg.placed hready
      (hstays.flyweights hinv.flyweights) hf hmemory hn hdecode⟩
  · -- a nested component: the number of its slot is written
    rw [hkind] at hv hend
    obtain ⟨q, i, rfl, hq, rfl⟩ := hv
    obtain ⟨n, hencode, hn, hdecode⟩ := ValueKind.exists_encode_int i
    obtain ⟨h', hready, hsame, hmemory, hrun⟩ :=
      exists_nestedSet hg.capacity hinv.ready hslot hlimit hend hkind hq hencode
    have hstays : Stays P.owner layout h h' := .of_sameInstances hsame
    have hsetter := returns_of_completes hsetter (setterDesign_code_object hkind ▸ hrun)
    have hcell : f.kind.cell = .int := by rw [hkind]; rfl
    rw [← hcell] at hmemory hn hdecode
    exact ⟨h', hsetter, hstays, hinv.of_written hg.placed hready
      (hstays.flyweights hinv.flyweights) hf hmemory hn hdecode⟩

/-- **Setting up the class** leaves all fields at zero. -/
theorem exists_begins (hg : Implements framed P layout g) (hfresh : Fresh P.owner layout h) : ∃ h',
    Begins P g h h' ∧ Stays P.owner layout h h' ∧
      Invariant P.owner layout (.zero layout) h' := by
  have hinv := invariant_of_null hfresh.data hfresh.flyweights
  cases hinit : g.init? with
  | none =>
    refine ⟨h, ?_, .refl P.owner layout h, hinv⟩
    rw [Begins, hinit]
  | some m =>
    obtain ⟨hm, hsize⟩ := hg.realized.init m hinit
    obtain ⟨h', hready, hkept, hrun⟩ := exists_staticInit (P := P) hfresh.data hsize
    have hstays : Stays P.owner layout h h' := .of_sameInstances hkept.instances
    refine ⟨h', ?_, hstays,
      hinv.of_preserved hready hkept.memory (hstays.flyweights hfresh.flyweights)⟩
    rw [Begins, hinit]
    exact returns_of_completes hm hrun

theorem Begins.unique {h'' : Heap} (hb : Begins P g h h') (hb' : Begins P g h h'') : h' = h'' := by
  unfold Begins at hb hb'
  cases hinit : g.init? with
  | none =>
    rw [hinit] at hb hb'
    rw [hb, hb']
  | some m =>
    rw [hinit] at hb hb'
    exact (hb.unique hb').2

/-- **The memory holds what the fields do** in every run. -/
theorem invariant_of_run (hg : Implements framed P layout g) (hrun : Run P layout g store h) :
    Invariant P.owner layout store h := by
  -- calls return in one way only, so each is the one that keeps the invariant
  induction hrun with
  | start hfresh hbegins =>
    obtain ⟨h', hbegins', -, hinv⟩ := exists_begins hg hfresh
    rwa [hbegins.unique hbegins']
  | get x _ hreturns ih =>
    obtain ⟨result, h', hreturns', -, -, hinv⟩ := exists_returns_getter hg ih x
    rwa [(hreturns.unique hreturns').2]
  | set x _ hv hreturns ih =>
    obtain ⟨h', hreturns', -, hinv⟩ := exists_returns_setter hg ih x hv
    rwa [(hreturns.unique hreturns').2]
  | elsewhere _ hother ih =>
    have hmemory := hother.memory ih.ready
    exact ih.of_preserved (hother.ready ih.ready) hmemory (hother.flyweights ih.flyweights)

end

end Packed

end ClassWeave
