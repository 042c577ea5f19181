import ClassWeave.Proofs.Packed.Failures
import ClassWeave.Proofs.Packed.Storage

/-!
# What packing makes of fields

* `Packed.Generated.Named` : the new methods of a packed unit, by their names.
* `Packed.Behaves` : the accessors read and write what fields would hold.
* `Packed.Behaves.get_after_set` : what was just stored is read back.
* `Packed.behaves_of_apply` : they do, in every unit that can be packed.
-/

namespace ClassWeave

namespace Packed

/-- A method has a name and a descriptor. -/
def IsNamed (pool : ConstantPool) (name descriptor : String) (m : Member) : Prop :=
  m.nameIn pool = .ok name ∧ m.descriptorIn pool = .ok descriptor

/-- The new methods have their names, one pair of accessors for each field of the layout. -/
structure Generated.Named (pool : ConstantPool) (layout : PackedLayout) (g : Generated) : Prop where
  /-- The method that sets up the class. -/
  init : ∀ m, g.init? = some m → IsNamed pool staticInitName Scan.plainDescriptor m
  /-- The method that makes room for a slot. -/
  ensure : IsNamed pool capacityMethod capacityDescriptor g.ensure
  /-- The accessors. -/
  accessors : List.Forall₂ (fun f a =>
    IsNamed pool (getterName f.name) (getterDescriptor f) a.getter ∧
      IsNamed pool (setterName f.name) (setterDescriptor f) a.setter) layout.fields g.accessors

/-- The accessors of a packed class read and write what fields would hold. -/
structure Behaves (P : Program) (layout : PackedLayout) (g : Generated) : Prop where
  /-- The class can be set up. -/
  begins : ∀ h, Fresh P.owner layout h → ∃ h', Begins P g h h' ∧ Stays P.owner layout h h'
  /-- After every run, a getter returns what the field of the slot holds.  All objects stay in their
  slots. -/
  get : ∀ store h, Run P layout g store h → ∀ x : Access P layout g h, ∃ result h',
    Returns P x.accessors.getter [.ref (some x.object)] h (some result) h' ∧
      Shows h' x.field.kind result (store x.slot x.position) ∧ Stays P.owner layout h h'
  /-- After every run, a setter returns when its argument is in range. -/
  set : ∀ store h, Run P layout g store h → ∀ x : Access P layout g h,
    ∀ argument v, Stores h x.field.kind argument v → ∃ h',
      Returns P x.accessors.setter [.ref (some x.object), argument] h none h' ∧
        Stays P.owner layout h h'

section

variable {framed : Bool} {P : Program} {owner : String} {layout : PackedLayout} {g : Generated}

theorem behaves_of_implements (hg : Implements framed P layout g) : Behaves P layout g := by
  refine ⟨?_, ?_, ?_⟩
  · intro h hfresh
    obtain ⟨h', hbegins, hstays, -⟩ := exists_begins hg hfresh
    exact ⟨h', hbegins, hstays⟩
  · intro store h hrun x
    obtain ⟨result, h', hreturns, hshows, hstays, -⟩ :=
      exists_returns_getter hg (invariant_of_run hg hrun) x
    exact ⟨result, h', hreturns, hshows, hstays⟩
  · intro store h hrun x argument v hv
    obtain ⟨h', hreturns, hstays, -⟩ := exists_returns_setter hg (invariant_of_run hg hrun) x hv
    exact ⟨h', hreturns, hstays⟩

/-- **What was just stored is read back.** -/
theorem Behaves.get_after_set (hg : Behaves P layout g) {store : Store} {h : Heap}
    (hrun : Run P layout g store h) (x : Access P layout g h) {argument v : Value}
    (hv : Stores h x.field.kind argument v) : ∃ h₁ result h₂,
      Returns P x.accessors.setter [.ref (some x.object), argument] h none h₁ ∧
        Returns P x.accessors.getter [.ref (some x.object)] h₁ (some result) h₂ ∧
          Shows h₂ x.field.kind result v := by
  obtain ⟨h₁, hset, hstays⟩ := hg.set store h hrun x argument v hv
  obtain ⟨result, h₂, hget, hshows, -⟩ := hg.get _ h₁ (hrun.set x hv hset) (x.after hstays)
  have hstored : store.set x.slot x.position v x.slot x.position = v := if_pos ⟨rfl, rfl⟩
  exact ⟨h₁, result, h₂, hset, hget, hstored ▸ hshows⟩

/-! ### The new methods -/

theorem isNamed_of_realized {pool : ConstantPool} {d : MethodDesign} {m : Member}
    (hm : d.Realized framed pool m) : IsNamed pool d.name d.descriptor m :=
  ⟨hm.name, hm.descriptor⟩

theorem Generated.Realized.named {pool : ConstantPool} (hg : g.Realized framed pool owner layout) :
    g.Named pool layout :=
  ⟨fun m hm => isNamed_of_realized (hg.init m hm).1, isNamed_of_realized hg.ensure,
    hg.accessors.imp fun _ _ ha => ⟨isNamed_of_realized ha.1, isNamed_of_realized ha.2⟩⟩

theorem exists_accessors {pool : ConstantPool} {fields : List PackedField} {ms : List Member}
    (h : List.Forall₂ (MethodDesign.Realized framed pool)
      (fields.flatMap fun f => [getterDesign owner layout f, setterDesign owner layout f]) ms) :
    ∃ accessors : List Accessors, ms = accessors.flatMap (fun a => [a.getter, a.setter]) ∧
      List.Forall₂ (fun f a => (getterDesign owner layout f).Realized framed pool a.getter ∧
        (setterDesign owner layout f).Realized framed pool a.setter) fields accessors := by
  induction fields generalizing ms with
  | nil =>
    cases h
    exact ⟨[], rfl, .nil⟩
  | cons f fields ih =>
    cases h with
    | @cons _ getter _ _ hgetter h =>
      cases h with
      | @cons _ setter _ _ hsetter h =>
        obtain ⟨accessors, rfl, haccessors⟩ := ih h
        exact ⟨⟨getter, setter⟩ :: accessors, rfl, .cons ⟨hgetter, hsetter⟩ haccessors⟩

/-- The methods that a unit gains when it is packed. -/
theorem Applied.exists_generated {index : TypeIndex} {u t : ClassFile}
    (h : Applied index owner layout u t) : ∃ g : Generated,
      t.methods.drop u.methods.length = g.methods ∧
        g.Realized u.needsFrames t.pool owner layout := by
  obtain ⟨inits, hinits, hnew⟩ := h.methods
  generalize t.methods.drop u.methods.length = ms at hnew ⊢
  -- the class is set up by a method of its own, or by a new one
  rcases hinits with rfl | ⟨rfl, hsize⟩
  · cases hnew with
    | @cons _ ensure _ _ hensure hms =>
      obtain ⟨accessors, rfl, haccessors⟩ := exists_accessors hms
      exact ⟨⟨none, ensure, accessors⟩, rfl, nofun, hensure, haccessors⟩
  · cases hnew with
    | @cons _ init _ _ hinit hnew =>
      cases hnew with
      | @cons _ ensure _ _ hensure hms =>
        obtain ⟨accessors, rfl, haccessors⟩ := exists_accessors hms
        refine ⟨⟨some init, ensure, accessors⟩, rfl, fun m hm => ?_, hensure, haccessors⟩
        cases hm
        exact ⟨hinit, hsize⟩

/-! ### Units that can be packed -/

/-- **Packed storage behaves like fields.**  In every unit that can be packed, and whatever the
constructors of nested components do elsewhere, every call of an accessor returns, and a getter
returns what was last stored in the field of the slot. -/
theorem behaves_of_apply {u t : ClassFile} {index : TypeIndex} {layout : PackedLayout}
    (hvalid : u.validate .packed index = .ok ()) (happly : Gives (apply index) u layout t) :
    ∃ owner g, u.name = .ok owner ∧ t.methods.drop u.methods.length = g.methods ∧
      g.Named t.pool layout ∧ ∀ construct, Quiet owner layout construct →
        Behaves { owner, pool := t.pool, methods := g.methods, construct } layout g := by
  obtain ⟨owner, happlied⟩ := gives_apply happly
  obtain ⟨g, hmethods, hrealized⟩ := happlied.exists_generated
  obtain ⟨view, hview, rfl⟩ := happlied.view
  refine ⟨owner, g, happlied.name, hmethods, hrealized.named, fun construct hquiet => ?_⟩
  have hkinds : ∀ f ∈ (PackedLayout.ofFields view).fields, f.kind.isPackable index owner := by
    intro f hf
    exact isPackable_of_validate hvalid happlied.name hview hf
  exact behaves_of_implements ⟨⟨view, rfl⟩, ⟨index, hkinds⟩, rfl, hrealized, hquiet⟩

end

/-- A class with a nested component is packed.  Once a component in slot 5 was put into an object in
slot 3, a component in slot 5 is read from it. -/
theorem behaves_of_apply_nested :
    let u : ClassFile :=
      { minor := 0, major := 52,
        pool := ⟨#[none, some (.utf8 "A"), some (.classInfo 1), some (.utf8 "java/lang/Object"),
          some (.classInfo 3), some (.utf8 "x"), some (.utf8 "LB;")]⟩,
        access := 0x21, thisClass := 2, superClass := 4, interfaces := [],
        fields := [{ access := 0, name := 5, descriptor := 6, attributes := [] }],
        methods := [], attributes := [] }
    let index : TypeIndex := FiniteMap.empty.insert "B" .packed
    let layout : PackedLayout := ⟨4, [⟨"x", .object "B", 0, 4⟩]⟩
    u.validate .packed index = .ok () ∧ ∃ (t : ClassFile) (g : Generated) (a : Accessors)
      (h h₁ h₂ : Heap) (result : Value), Gives (apply index) u layout t ∧ t.methods = g.methods ∧
        g.accessors = [a] ∧ slot? "A" h 0 = some 3 ∧ slot? "B" h 1 = some 5 ∧
        let P : Program :=
          { owner := "A", pool := t.pool, methods := g.methods, construct := fun _ _ h => h }
        Returns P a.setter [.ref (some 0), .ref (some 1)] h none h₁ ∧
          Returns P a.getter [.ref (some 0)] h₁ (some result) h₂ ∧
            ∃ q, result = .ref (some q) ∧ slot? "B" h₂ q = some 5 := by
  intro u index layout
  have hvalid : u.validate .packed index = .ok () := by decide +kernel
  obtain ⟨b, hread⟩ : ∃ b, ClassFile.read {} b = .ok u := ClassFile.exists_read (by decide +kernel)
  obtain ⟨t, happly⟩ : ∃ t, Gives (apply index) u layout t := by
    obtain ⟨layout', t, happly⟩ := exists_gives_apply hread hvalid rfl (by decide)
    obtain ⟨_, happlied⟩ := gives_apply happly
    obtain ⟨view, hview, rfl⟩ := happlied.view
    have hlayout : PackedLayout.ofFields <$> u.fieldsView = .ok layout := by decide +kernel
    rw [hview] at hlayout
    exact ⟨t, Except.ok.inj hlayout ▸ happly⟩
  obtain ⟨owner, g, hname, hmethods, hnamed, hbehaves⟩ := behaves_of_apply hvalid happly
  have hname' : u.name = .ok "A" := by decide +kernel
  obtain rfl := Except.ok.inj (hname.symm.trans hname')
  obtain ⟨a, ha⟩ : ∃ a, g.accessors = [a] :=
    List.length_eq_one_iff.1 hnamed.accessors.length_eq.symm
  have hquiet : Quiet "A" layout fun _ _ h => h :=
    fun _ _ _ h => ⟨.refl "A" h, fun _ _ => id, fun _ _ _ _ => id, id⟩
  have hbehaves := hbehaves _ hquiet
  let fresh : Heap :=
    { objects := [.ofClass "A" fun m => if m = indexMember "A" then .int 3 else .null,
        .ofClass "B" fun _ => .null]
      statics := fun _ => .null }
  have hfresh : Fresh "A" layout fresh := by
    refine ⟨rfl, fun f _ nested _ o v hv => .inl ?_⟩
    match o with
    | 0 =>
      have hv := Option.some_inj.1 hv
      exact hv.symm.trans (if_neg (flyweightMember_ne_indexMember "A" "A" f))
    | 1 => exact (Option.some_inj.1 hv).symm
    | _ + 2 => cases hv
  obtain ⟨h₀, hstart, hstays₀⟩ := hbehaves.begins fresh hfresh
  -- other code moves the component to slot 5
  have hother : indexMember "B" ≠ indexMember "A" := by decide
  obtain ⟨w, hw⟩ := Heap.exists_field? (hstays₀.classes 1 "B" rfl) (indexMember "B")
  obtain ⟨h, -, hsame, hmoved, hfive⟩ := exists_putField layout (.int 5) hw hother
    fun f _ _ _ heq => absurd heq (flyweightMember_ne_indexMember "A" "B" f)
  have hrun := (Run.start hfresh hstart).elsewhere ⟨hsame, hmoved.flyweights⟩
  have hthree : slot? "A" h 0 = some 3 := by
    rw [slot?, (hstays₀.trans hmoved).slots 0 (.int 3) rfl]
    rfl
  have hstores : Stores h (.object "B") (.ref (some 1)) (.int 5) := ⟨1, 5, rfl, hfive, rfl⟩
  obtain ⟨h₁, result, h₂, hset, hget, q, hq, -, hslot⟩ := hbehaves.get_after_set hrun
    ⟨0, 3, 0, ⟨"x", .object "B", 0, 4⟩, a, hthree, by decide, rfl, by rw [ha]; rfl⟩ hstores
  refine ⟨hvalid, t, g, a, h, h₁, h₂, result, happly, hmethods, ha, hthree, ?_, hset, hget, q, hq,
    ?_⟩
  · rw [slot?, hfive]
    rfl
  · rw [slot?, hslot]
    rfl

end Packed

end ClassWeave
