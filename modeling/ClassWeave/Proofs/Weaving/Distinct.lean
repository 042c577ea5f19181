import ClassWeave.Proofs.ClassFile.Codec
import ClassWeave.Proofs.Packed.Verified
import ClassWeave.Proofs.Weaving.Transform

/-!
# Members that are told apart

No two fields of a class, and no two methods, may have both their names and their descriptors in
common.  Weaving adds members to those that the author of a unit has declared.  It looks for a
`reset` and for a method that sets up the class before it adds one, but not for the other members.

* `ClassFile.Declares` : the members of a unit by their texts; every stage of weaving keeps the
  texts of members, and adds those of new members behind them.
* `Packed.fieldTexts`, `Packed.nodup_fieldTexts`, `nodup_methodTexts` : the members that packing
  adds, which are told apart from each other.
* `ClassFile.hasDistinctMembers_of_weave` : the members of a woven unit are told apart, unless a
  packed unit had one with the texts of an added member.
-/

namespace ClassWeave

/-! ### Members by their texts -/

namespace Member

variable {p q : ConstantPool} {m m' : Member} {ms ms' : List Member}

/-- The name and the descriptor of a member. -/
def textsIn (pool : ConstantPool) (m : Member) : Except Malformation (String × String) := do
  return (← m.nameIn pool, ← m.descriptorIn pool)

theorem textsIn_eq_ok {text : String × String} : m.textsIn p = .ok text ↔
    m.nameIn p = .ok text.1 ∧ m.descriptorIn p = .ok text.2 := by
  simp only [textsIn, except_bind_eq_ok, except_pure_eq_ok]
  constructor
  · rintro ⟨name, hname, descriptor, hdescriptor, rfl⟩
    exact ⟨hname, hdescriptor⟩
  · rintro ⟨hname, hdescriptor⟩
    exact ⟨text.1, hname, text.2, hdescriptor, rfl⟩

theorem textsIn_mono (hpq : p.Extends q) {text : String × String} (h : m.textsIn p = .ok text) :
    m.textsIn q = .ok text := by
  obtain ⟨hname, hdescriptor⟩ := textsIn_eq_ok.1 h
  exact textsIn_eq_ok.2 ⟨hpq.utf8 hname, hpq.utf8 hdescriptor⟩

theorem SameHead.textsIn_eq (h : m.SameHead m') : m'.textsIn p = m.textsIn p := by
  unfold textsIn nameIn descriptorIn
  rw [h.name, h.descriptor]

end Member

/-- The name and the descriptor of a design. -/
def FieldDesign.texts (d : FieldDesign) : String × String := (d.name, d.descriptor)

theorem FieldDesign.Realized.textsIn {p : ConstantPool} {d : FieldDesign} {f : Member}
    (h : d.Realized p f) : f.textsIn p = .ok d.texts :=
  Member.textsIn_eq_ok.2 ⟨h.name, h.descriptor⟩

theorem MethodDesign.Realized.textsIn {framed : Bool} {p : ConstantPool} {d : MethodDesign}
    {m : Member} (h : d.Realized framed p m) : m.textsIn p = .ok d.texts :=
  Member.textsIn_eq_ok.2 ⟨h.name, h.descriptor⟩

namespace ClassFile

/-- No two fields, and no two methods, have both their names and their descriptors in common. -/
structure HasDistinctMembers (u : ClassFile) : Prop where
  /-- The fields are told apart. -/
  fields : (u.fields.map (Member.textsIn u.pool)).Nodup
  /-- The methods are told apart. -/
  methods : (u.methods.map (Member.textsIn u.pool)).Nodup

instance (u : ClassFile) : Decidable u.HasDistinctMembers :=
  decidable_of_iff ((u.fields.map (Member.textsIn u.pool)).Nodup ∧
    (u.methods.map (Member.textsIn u.pool)).Nodup) ⟨fun h => ⟨h.1, h.2⟩, fun h => ⟨h.1, h.2⟩⟩

/-- The names and descriptors of the fields and of the methods, in the order of declaration. -/
structure Declares (u : ClassFile) (fields methods : List (String × String)) : Prop where
  /-- Those of the fields. -/
  fields : List.Forall₂ (fun m text => m.textsIn u.pool = .ok text) u.fields fields
  /-- Those of the methods. -/
  methods : List.Forall₂ (fun m text => m.textsIn u.pool = .ok text) u.methods methods

variable {u t : ClassFile} {fs ms : List (String × String)}

theorem map_textsIn {p : ConstantPool} {members : List Member} {texts : List (String × String)}
    (h : List.Forall₂ (fun m text => m.textsIn p = .ok text) members texts) :
    members.map (Member.textsIn p) = texts.map .ok := by
  induction h with
  | nil => rfl
  | cons hm _ ih => rw [List.map_cons, List.map_cons, hm, ih]

theorem Declares.hasDistinctMembers_iff (h : u.Declares fs ms) :
    u.HasDistinctMembers ↔ fs.Nodup ∧ ms.Nodup := by
  constructor
  · rintro ⟨hfields, hmethods⟩
    rw [map_textsIn h.fields] at hfields
    rw [map_textsIn h.methods] at hmethods
    exact ⟨hfields.of_map _, hmethods.of_map _⟩
  · rintro ⟨hfields, hmethods⟩
    refine ⟨?_, ?_⟩
    · rw [map_textsIn h.fields]
      exact hfields.map except_ok_injective
    · rw [map_textsIn h.methods]
      exact hmethods.map except_ok_injective

/-- The members of a unit that was read have names and descriptors. -/
theorem exists_declares_of_read {versions : VersionRange} {b : Bytes}
    (h : read versions b = .ok u) : ∃ fs ms, u.Declares fs ms := by
  obtain ⟨-, -, hnames, -⟩ := read_eq_ok.1 h
  obtain ⟨fs, hfs⟩ : ∃ fs, u.fields.mapM (Member.textsIn u.pool) = .ok fs :=
    exists_mapM_eq_ok.2 fun f hf => by
      obtain ⟨⟨name, hname⟩, descriptor, _, hdescriptor, -⟩ := hnames.fields f hf
      exact ⟨(name, descriptor), Member.textsIn_eq_ok.2 ⟨hname, hdescriptor⟩⟩
  obtain ⟨ms, hms⟩ : ∃ ms, u.methods.mapM (Member.textsIn u.pool) = .ok ms :=
    exists_mapM_eq_ok.2 fun m hm => by
      obtain ⟨⟨name, hname⟩, descriptor, hdescriptor⟩ := hnames.methods m hm
      exact ⟨(name, descriptor), Member.textsIn_eq_ok.2 ⟨hname, hdescriptor⟩⟩
  exact ⟨fs, ms, except_mapM_eq_ok.1 hfs, except_mapM_eq_ok.1 hms⟩

/-! ### What edits make of them -/

/-- Members that are gained come behind those that were there. -/
theorem Declares.gained (h : u.Declares fs ms) {fds : List FieldDesign} {mds : List MethodDesign}
    (hgained : u.Gained fds mds t) :
    t.Declares (fs ++ fds.map FieldDesign.texts) (ms ++ mds.map MethodDesign.texts) := by
  obtain ⟨hpool, fields, methods, hfields, hmethods, heq⟩ := hgained
  have hf : t.fields = u.fields ++ fields := by rw [heq]
  have hm : t.methods = u.methods ++ methods := by rw [heq]
  refine ⟨?_, ?_⟩
  · rw [hf]
    refine List.rel_append (h.fields.imp fun _ _ htext => Member.textsIn_mono hpool htext) ?_
    exact List.forall₂_map_right_iff.2 (hfields.flip.imp fun _ _ hd => hd.textsIn)
  · rw [hm]
    refine List.rel_append (h.methods.imp fun _ _ htext => Member.textsIn_mono hpool htext) ?_
    exact List.forall₂_map_right_iff.2 (hmethods.flip.imp fun _ _ hd => hd.textsIn)

/-- Methods with the same heads have the same texts. -/
theorem Declares.retouched (h : u.Declares fs ms) (hpool : u.pool.Extends t.pool)
    (hfields : t.fields = u.fields) (hmethods : List.Forall₂ Member.SameHead u.methods t.methods) :
    t.Declares fs ms := by
  refine ⟨?_, ?_⟩
  · rw [hfields]
    exact h.fields.imp fun _ _ htext => Member.textsIn_mono hpool htext
  · refine forall₂_trans (fun m' m text hm htext => ?_) hmethods.flip h.methods
    have hsame : m.SameHead m' := hm
    rw [hsame.textsIn_eq]
    exact Member.textsIn_mono hpool htext

/-- A larger pool gives the same texts. -/
theorem Declares.mono (h : u.Declares fs ms) (hpool : u.pool.Extends t.pool)
    (hfields : t.fields = u.fields) (hmethods : t.methods = u.methods) : t.Declares fs ms := by
  refine h.retouched hpool hfields ?_
  rw [hmethods]
  exact List.forall₂_same.2 fun m _ => ⟨rfl, rfl, rfl⟩

/-- A method that is not found is none of those that are declared. -/
theorem not_mem_of_firstMethod? {p : ConstantPool} {members : List Member}
    {texts : List (String × String)} {name descriptor : String}
    (h : List.Forall₂ (fun m text => m.textsIn p = .ok text) members texts)
    (hnone : firstMethod? p name descriptor members = .ok none) : (name, descriptor) ∉ texts := by
  intro hmem
  obtain ⟨m, hm, htexts⟩ := exists_of_mem_right h hmem
  exact firstMethod?_eq_none hnone m hm (Member.textsIn_eq_ok.1 htexts)

/-- Dropping fields drops their texts. -/
theorem Declares.filtered (h : u.Declares fs ms) (keep : Member → Bool) : ∃ kept,
    Declares { u with fields := u.fields.filter keep } kept ms := by
  obtain ⟨kept, hkept⟩ : ∃ kept, (u.fields.filter keep).mapM (Member.textsIn u.pool) = .ok kept :=
    exists_mapM_eq_ok.2 fun m hm => by
      obtain ⟨text, -, htext⟩ := exists_of_mem_left h.fields (List.mem_of_mem_filter hm)
      exact ⟨text, htext⟩
  exact ⟨kept, except_mapM_eq_ok.1 hkept, h.methods⟩

end ClassFile

theorem Edit.Rewritten.sameHead {choose : Member → Instruction.Site → Except Malformation Bool}
    {redirect : Instruction.Site → Interning Instruction.Site} {p q : ConstantPool} {m m' : Member}
    (h : Edit.Rewritten choose redirect p q m m') : m.SameHead m' := by
  obtain ⟨_, done, -, -, rfl⟩ := h
  exact ⟨rfl, rfl, rfl⟩

/-- Moving to another superclass keeps the texts of all members. -/
theorem ClassFile.Declares.moved {u t : ClassFile} {fs ms : List (String × String)}
    {old new : String} (h : u.Declares fs ms)
    (hmoved : u.superName? = .ok (some old) ∧ Edit.Reparented old new u t ∨
      (∃ name?, u.superName? = .ok name? ∧ name? ≠ some old) ∧ t = u) : t.Declares fs ms := by
  rcases hmoved with ⟨-, hreparented⟩ | ⟨-, rfl⟩
  · obtain ⟨_, -, -, hmethods⟩ := hreparented.methods
    exact h.retouched hreparented.pool (by rw [hreparented.rest])
      (hmethods.imp fun _ _ hm => hm.sameHead)
  · exact h

/-! ### Pooled units -/

section

variable {owner : String} {u t : ClassFile} {fs ms : List (String × String)}

/-- Pooling adds a reset unless there is one. -/
theorem Pooled.Applied.declares (h : Applied owner u t) (hu : u.Declares fs ms) : ∃ added,
    t.Declares fs (ms ++ added) ∧ (added = [] ∨
      added = [(Scan.resetName, Scan.plainDescriptor)] ∧
        (Scan.resetName, Scan.plainDescriptor) ∉ ms) := by
  obtain ⟨v, ⟨reset?, hreset?, hreset⟩, hmoved⟩ := h.stages
  rcases hreset with ⟨-, rfl⟩ | ⟨rfl, targets, -, -, hgained⟩
  · refine ⟨[], ?_, .inl rfl⟩
    rw [List.append_nil]
    exact hu.moved hmoved
  · refine ⟨_, ?_, .inr ⟨rfl, ClassFile.not_mem_of_firstMethod? hu.methods hreset?⟩⟩
    have hv := hu.gained hgained
    rw [List.map_nil, List.append_nil] at hv
    exact hv.moved hmoved

end

/-! ### Packed units -/

namespace Packed

/-- The names and the descriptors of the fields that every packed unit gains: three that all have,
and one for each nested component. -/
def fieldTexts (layout : PackedLayout) : List (String × String) :=
  [(indexField, "I"), (dataField, byteBufferDescriptor), (strideField, "I")] ++
    layout.fields.flatMap fun f => (flyweightFields f).map FieldDesign.texts

theorem map_texts_fields (layout : PackedLayout) :
    (sharedFields layout ++ layout.fields.flatMap flyweightFields).map FieldDesign.texts =
      fieldTexts layout := by
  rw [List.map_append, List.map_flatMap]
  rfl

variable {index : TypeIndex} {owner : String} {layout : PackedLayout} {u t : ClassFile}
  {fs ms : List (String × String)}

/-- **What a packed unit declares.**  The static fields stay in front of the new ones, and the
methods in front of the new ones.  There is one that sets up the class among the latter unless the
unit had one. -/
theorem Applied.declares (h : Applied index owner layout u t) (hu : u.Declares fs ms) :
    ∃ statics inits,
      List.Forall₂ (fun m text => m.textsIn u.pool = .ok text)
        (u.fields.filter (!·.isInstance)) statics ∧
      t.Declares (statics ++ fieldTexts layout) (ms ++ (inits ++ methodTexts layout)) ∧
      (inits = [] ∨ inits = [(staticInitName, Scan.plainDescriptor)] ∧
        (staticInitName, Scan.plainDescriptor) ∉ ms) := by
  obtain ⟨u₁, u₂, u₃, u₄, hrewritten, hshared, ⟨init?, hinit?, -, hinit⟩, hmethods, hmoved⟩ :=
    h.stages
  have hsame : u₁.fields = u.fields := by rw [hrewritten.rest]
  obtain ⟨statics, hstatics⟩ := hu.filtered (!·.isInstance)
  -- one stage after the other
  have h₁ : ({ u₁ with fields := u₁.fields.filter (!·.isInstance) } : ClassFile).Declares
      statics ms := by
    refine hstatics.retouched hrewritten.pool (by simp only [hsame]) ?_
    exact hrewritten.methods.imp fun _ _ hm => hm.sameHead
  have h₂ := h₁.gained hshared
  rw [List.map_nil, List.append_nil] at h₂
  have h₃ := h₂.gained hinit
  rw [List.map_nil, List.append_nil] at h₃
  have h₄ := (h₃.gained hmethods).moved hmoved
  rw [map_texts_designs, List.append_assoc, ← List.map_append, map_texts_fields,
    List.append_assoc] at h₄
  refine ⟨statics, _, hstatics.fields, h₄, ?_⟩
  cases init? with
  | some m => exact .inl rfl
  | none => exact .inr ⟨rfl, ClassFile.not_mem_of_firstMethod? h₂.methods hinit?⟩

/-! ### The new members are told apart -/

theorem getterName_ne_setterName (a b : String) : getterName a ≠ setterName b := by
  intro h
  have hlist := congrArg String.toList h
  simp [getterName, setterName, String.toList_append] at hlist

/-- The accessors of fields that are told apart are told apart. -/
theorem disjoint_accessorTexts {f g : PackedField}
    (h : (f.name, f.kind.descriptor) ≠ (g.name, g.kind.descriptor)) : List.Disjoint
      [(getterName f.name, getterDescriptor f), (setterName f.name, setterDescriptor f)]
      [(getterName g.name, getterDescriptor g), (setterName g.name, setterDescriptor g)] := by
  simp only [List.disjoint_cons_left, List.disjoint_nil_left, List.mem_cons, List.not_mem_nil,
    or_false, not_or, and_true, Prod.mk.injEq, not_and]
  refine ⟨⟨fun hname hdescriptor => h ?_, fun hname => ?_⟩, fun hname => ?_,
    fun hname hdescriptor => h ?_⟩
  · exact Prod.ext ((String.append_right_inj _).1 hname) ((String.append_right_inj _).1 hdescriptor)
  · exact absurd hname (getterName_ne_setterName _ _)
  · exact absurd hname.symm (getterName_ne_setterName _ _)
  · exact Prod.ext ((String.append_right_inj _).1 hname) ((String.append_right_inj _).1
      ((String.append_left_inj _).1 hdescriptor))

/-- No accessor has the name of one of the other methods. -/
theorem not_mem_accessorTexts {f : PackedField} {name descriptor : String}
    (h : name = staticInitName ∨ name = capacityMethod) : (name, descriptor) ∉
      [(getterName f.name, getterDescriptor f), (setterName f.name, setterDescriptor f)] := by
  intro hmem
  have hname : name = getterName f.name ∨ name = setterName f.name := by
    simpa using (List.mem_map_of_mem (f := Prod.fst) hmem)
  rcases h with rfl | rfl <;> rcases hname with heq | heq <;>
    simpa [staticInitName, capacityMethod, getterName, setterName, String.toList_append] using
      congrArg String.toList heq

/-- **The methods that packing adds** are told apart if the fields of the layout are. -/
theorem nodup_methodTexts
    (h : (layout.fields.map fun f => (f.name, f.kind.descriptor)).Nodup) :
    ((staticInitName, Scan.plainDescriptor) :: methodTexts layout).Nodup := by
  have hother {name descriptor : String} (hname : name = staticInitName ∨ name = capacityMethod) :
      (name, descriptor) ∉ layout.fields.flatMap fun f =>
        [(getterName f.name, getterDescriptor f), (setterName f.name, setterDescriptor f)] := by
    intro hmem
    obtain ⟨f, -, hf⟩ := List.mem_flatMap.1 hmem
    exact not_mem_accessorTexts hname hf
  have haccessors : (layout.fields.flatMap fun f =>
      [(getterName f.name, getterDescriptor f),
        (setterName f.name, setterDescriptor f)]).Nodup := by
    refine List.nodup_flatMap.2 ⟨fun f _ => ?_, ?_⟩
    · refine List.nodup_cons.2 ⟨fun hmem => ?_, List.nodup_singleton _⟩
      exact getterName_ne_setterName _ _ (Prod.mk.inj (List.mem_singleton.1 hmem)).1
    · exact (List.pairwise_map.1 h).imp fun hne => disjoint_accessorTexts hne
  refine List.nodup_cons.2 ⟨fun hmem => ?_, List.nodup_cons.2 ⟨hother (.inr rfl), haccessors⟩⟩
  rcases List.mem_cons.1 hmem with heq | hmem
  · exact absurd (congrArg Prod.fst heq) (by decide)
  · exact hother (.inl rfl) hmem

/-- **The fields that packing adds** are told apart if the fields of the layout are. -/
theorem nodup_fieldTexts (h : (layout.fields.map fun f => (f.name, f.kind.descriptor)).Nodup) :
    (fieldTexts layout).Nodup := by
  have hflyweight {f : PackedField} {text : String × String}
      (hmem : text ∈ (flyweightFields f).map FieldDesign.texts) :
      text = (flyweightName f.name, f.kind.descriptor) := by
    obtain ⟨d, hd, rfl⟩ := List.mem_map.1 hmem
    rw [eq_of_mem_flyweightFields hd]
    rfl
  refine List.nodup_append'.2 ⟨by decide, List.nodup_flatMap.2 ⟨fun f _ => ?_, ?_⟩, ?_⟩
  · unfold flyweightFields
    split
    · exact List.nodup_singleton _
    · exact List.nodup_nil
  · refine (List.pairwise_map.1 h).imp fun hne text hf hg => hne ?_
    obtain ⟨hname, hdescriptor⟩ := Prod.mk.inj ((hflyweight hf).symm.trans (hflyweight hg))
    exact Prod.ext ((String.append_right_inj _).1 hname) hdescriptor
  · intro text hshared hmem
    obtain ⟨f, -, hmem⟩ := List.mem_flatMap.1 hmem
    obtain rfl := hflyweight hmem
    simp only [List.mem_cons, List.not_mem_nil, or_false, Prod.mk.injEq] at hshared
    rcases hshared with ⟨heq, -⟩ | ⟨heq, -⟩ | ⟨heq, -⟩ <;>
      simpa [indexField, dataField, strideField, flyweightName, String.toList_append] using
        congrArg String.toList heq

/-! ### Members in the way -/

/-- No static field and no method of the unit has the name and the descriptor of a member that
packing adds without looking for one. -/
structure LeavesFree (layout : PackedLayout) (u : ClassFile) : Prop where
  /-- No static field. -/
  statics : ∀ f ∈ u.fields, f.isInstance = false → ∀ text ∈ fieldTexts layout,
    f.textsIn u.pool ≠ .ok text
  /-- No method. -/
  methods : ∀ m ∈ u.methods, ∀ text ∈ methodTexts layout, m.textsIn u.pool ≠ .ok text

theorem map_place (offset : Nat) (fields : List Field) :
    (PackedLayout.place offset fields).map (fun f => (f.name, f.kind.descriptor)) =
      fields.map fun f => (f.name, f.kind.descriptor) := by
  induction fields generalizing offset with
  | nil => rfl
  | cons f fields ih => rw [PackedLayout.place, List.map_cons, List.map_cons, ih]

/-- The fields of a layout have the texts of the instance fields. -/
theorem textsIn_instanceFields {view : List Field} (hview : u.fieldsView = .ok view) :
    (u.fields.filter (·.isInstance)).map (Member.textsIn u.pool) =
      ((PackedLayout.ofFields view).fields.map fun f => (f.name, f.kind.descriptor)).map .ok := by
  refine ClassFile.map_textsIn ?_
  show List.Forall₂ _ _ (List.map _ (PackedLayout.place 0 (view.filter (!·.isStatic))))
  rw [map_place]
  refine List.forall₂_map_right_iff.2 ?_
  have hfields : List.Forall₂ (fun m f => ClassFile.viewOf u.pool m = .ok f) u.fields view :=
    except_mapM_eq_ok.1 hview
  have hinstances := List.rel_filter (p := fun m => m.isInstance) (q := fun f => !f.isStatic)
    (fun m f hm => by
      obtain ⟨_, _, _, -, -, -, rfl⟩ := ClassFile.viewOf_eq_ok.1 hm
      simp) hfields
  refine hinstances.imp fun m f hm => ?_
  obtain ⟨name, descriptor, kind, hname, hdescriptor, hkind, rfl⟩ := ClassFile.viewOf_eq_ok.1 hm
  rw [ValueKind.descriptor_of_parse hkind]
  exact Member.textsIn_eq_ok.2 ⟨hname, hdescriptor⟩

/-- What is declared stays clear of texts just when none of them is found. -/
theorem disjoint_iff {p : ConstantPool} {members : List Member}
    {texts others : List (String × String)}
    (h : List.Forall₂ (fun m text => m.textsIn p = .ok text) members texts) :
    texts.Disjoint others ↔ ∀ m ∈ members, ∀ text ∈ others, m.textsIn p ≠ .ok text := by
  constructor
  · intro hdisjoint m hm text hother htext
    obtain ⟨own, hmem, hown⟩ := exists_of_mem_left h hm
    obtain rfl := Except.ok.inj (hown.symm.trans htext)
    exact hdisjoint hmem hother
  · intro hnone text hmem hother
    obtain ⟨m, hm, htext⟩ := exists_of_mem_right h hmem
    exact hnone m hm text hother htext

/-- Packing keeps the members of a unit apart just when none of them is in the way. -/
theorem Applied.hasDistinctMembers_iff (h : Applied index owner layout u t)
    (hu : u.Declares fs ms) (hdistinct : u.HasDistinctMembers) :
    t.HasDistinctMembers ↔ LeavesFree layout u := by
  obtain ⟨view, hview, hlayout⟩ := h.view
  obtain ⟨statics, inits, hstatics, ht, hinits⟩ := h.declares hu
  -- the fields of the layout are told apart, as they were instance fields
  have hfields : (layout.fields.map fun f => (f.name, f.kind.descriptor)).Nodup := by
    have hsub := (List.filter_sublist (p := fun f => f.isInstance) (l := u.fields)).map
      (Member.textsIn u.pool)
    have hnodup := hdistinct.fields.sublist hsub
    rw [textsIn_instanceFields hview, ← hlayout] at hnodup
    exact hnodup.of_map _
  have hown : statics.Nodup := by
    have hsub := (List.filter_sublist (p := fun f => !f.isInstance) (l := u.fields)).map
      (Member.textsIn u.pool)
    have hnodup := hdistinct.fields.sublist hsub
    rw [ClassFile.map_textsIn hstatics] at hnodup
    exact hnodup.of_map _
  have hms := (hu.hasDistinctMembers_iff.1 hdistinct).2
  have hadded : (inits ++ methodTexts layout).Nodup := by
    have hall := nodup_methodTexts hfields
    rcases hinits with rfl | ⟨rfl, -⟩
    · exact (List.nodup_cons.1 hall).2
    · exact hall
  have hclear : ms.Disjoint inits := by
    rcases hinits with rfl | ⟨rfl, hnone⟩
    · exact List.disjoint_nil_right _
    · exact List.disjoint_singleton.2 hnone
  rw [ht.hasDistinctMembers_iff, List.nodup_append', List.nodup_append', List.disjoint_append_right,
    disjoint_iff hstatics]
  constructor
  · rintro ⟨⟨-, -, hfree⟩, -, -, -, hfree'⟩
    exact ⟨fun f hf hinstance => hfree f (List.mem_filter.2 ⟨hf, by simp [hinstance]⟩),
      (disjoint_iff hu.methods).1 hfree'⟩
  · rintro ⟨hfree, hfree'⟩
    refine ⟨⟨hown, nodup_fieldTexts hfields, fun f hf => ?_⟩, hms, hadded, hclear,
      (disjoint_iff hu.methods).2 hfree'⟩
    obtain ⟨hmem, hinstance⟩ := List.mem_filter.1 hf
    exact hfree f hmem (by simpa using hinstance)

end Packed

/-! ### Woven units -/

namespace ClassFile

variable {index : TypeIndex} {settings : Settings} {versions : VersionRange} {u : ClassFile}
  {r : Woven} {b : Bytes}

/-- The woven marker changes nothing about members. -/
theorem Declares.marked {v t : ClassFile} {fs ms : List (String × String)} (h : v.Declares fs ms)
    {s : Strategy} {a : Unit} (hmarked : Gives (Edit.markWoven s) v a t) : t.Declares fs ms := by
  obtain ⟨_, _, _, -, hvq, -, -, hqt, -, heq⟩ := Edit.gives_markWoven hmarked
  exact h.mono (hvq.trans hqt) (by rw [heq]) (by rw [heq])

/-- **Weaving keeps members apart**, unless some are in the way.  A pooled unit never has two
fields or two methods with the same name and descriptor if the unit that was read has none.  A
packed unit has none just when no static field and no method that the author declared has the name
and the descriptor of one that packing adds without looking for it: the number of the slot, the
buffer, the distance between slots, the objects that stand for nested components, the method that
makes room for a slot, and the accessors. -/
theorem hasDistinctMembers_of_weave (h : read versions b = .ok u)
    (hdistinct : u.HasDistinctMembers) (hweave : u.weave index settings = .ok (some r)) :
    (r.strategy = .pooled → r.unit.HasDistinctMembers) ∧
      (r.strategy = .packed → ∃ layout, r.layout? = some layout ∧
        (r.unit.HasDistinctMembers ↔ Packed.LeavesFree layout u)) := by
  obtain ⟨fs, ms, hu⟩ := exists_declares_of_read h
  obtain ⟨_, -, -, -, -, -, -, hgives, -⟩ := weave_eq_ok hweave
  obtain ⟨v, happlied, hmarked⟩ := Edit.gives_weaveBy hgives
  constructor
  · intro hpooled
    rw [hpooled] at happlied hmarked
    obtain ⟨-, owner, happlied⟩ := happlied
    obtain ⟨hnone, -⟩ | ⟨-, hmarked⟩ := hmarked
    · cases hnone
    obtain ⟨added, hv, hadded⟩ := happlied.declares hu
    rw [(hv.marked hmarked).hasDistinctMembers_iff]
    obtain ⟨hfs, hms⟩ := hu.hasDistinctMembers_iff.1 hdistinct
    refine ⟨hfs, List.nodup_append'.2 ?_⟩
    rcases hadded with rfl | ⟨rfl, hnew⟩
    · exact ⟨hms, List.nodup_nil, List.disjoint_nil_right _⟩
    · exact ⟨hms, List.nodup_singleton _, List.disjoint_singleton.2 hnew⟩
  · intro hpacked
    rw [hpacked] at happlied hmarked
    obtain ⟨owner, layout, hlayout, happlied⟩ := happlied
    obtain ⟨hnone, -⟩ | ⟨-, hmarked⟩ := hmarked
    · cases hnone
    obtain ⟨statics, inits, -, hv, -⟩ := happlied.declares hu
    refine ⟨layout, hlayout, ?_⟩
    rw [(hv.marked hmarked).hasDistinctMembers_iff, ← hv.hasDistinctMembers_iff]
    exact happlied.hasDistinctMembers_iff hu hdistinct

/-- A unit with a static field that has the name and the type of the distance between slots. -/
def withStride : ClassFile :=
  { minor := 0, major := 52,
    pool := ⟨#[none, some (.utf8 "A"), some (.classInfo 1), some (.utf8 "java/lang/Object"),
      some (.classInfo 3), some (.utf8 "RuntimeInvisibleAnnotations"),
      some (.utf8 "Lcom/artemis/annotations/PackedWeaver;"), some (.utf8 "x"), some (.utf8 "I"),
      some (.utf8 "$stride")]⟩,
    access := 0x21, thisClass := 2, superClass := 4, interfaces := [],
    fields := [{ access := 0, name := 7, descriptor := 8, attributes := [] },
      { access := Access.staticFlag, name := 9, descriptor := 8, attributes := [] }],
    methods := [], attributes := [.annotations 5 [{ type := 6, elements := [] }]] }

/-- When it is packed, it gets a second field of that name and type. -/
theorem hasDistinctMembers_of_weave_withStride : ∃ b r, read {} b = .ok withStride ∧
    withStride.HasDistinctMembers ∧ withStride.weave .empty {} = .ok (some r) ∧
      r.strategy = .packed ∧ ¬ r.unit.HasDistinctMembers := by
  obtain ⟨b, hread⟩ : ∃ b, read {} b = .ok withStride := exists_read (by decide +kernel)
  have hdistinct : withStride.HasDistinctMembers := by decide +kernel
  have hresult : Option.map Woven.strategy <$> withStride.weave .empty {} =
      .ok (some .packed) := by
    decide +kernel
  obtain ⟨r, hweave, hpacked⟩ := except_map_some_eq_ok.1 hresult
  obtain ⟨layout, -, hiff⟩ := (hasDistinctMembers_of_weave hread hdistinct hweave).2 hpacked
  refine ⟨b, r, hread, hdistinct, hweave, hpacked, fun hwoven => ?_⟩
  -- the static field is in the way
  exact (hiff.1 hwoven).statics _ (List.mem_cons_of_mem _ List.mem_cons_self) (by decide)
    (Packed.strideField, "I") (List.mem_append_left _ (by decide)) (by decide +kernel)

end ClassFile

end ClassWeave
