import ClassWeave.Proofs.Run.Nested
import ClassWeave.Proofs.Weaving.Conserved
import ClassWeave.Proofs.Weaving.Distinct

/-!
# The constructors of nested components

The getter of a nested component creates the object that stands for it on first use, by the
constructor without parameters of the type of the component.  That the type is packed as well is
all that was checked of it: packing adds no constructor, and asks for none.

* `ClassFile.DeclaresConstructor` : what the getter relies on.
* `Packed.declaresConstructor_iff_of_weave` : packing a unit neither adds a constructor nor takes
  one away.
* `Packed.exists_getter_of_weave` : the getter of a nested component in the woven unit.
* `Run.constructors_of_woven` : the getter works only if the author of the type has declared the
  constructor.
-/

namespace ClassWeave

/-- The unit declares a constructor without parameters. -/
def ClassFile.DeclaresConstructor (u : ClassFile) : Prop :=
  .ok (Scan.constructorName, Scan.plainDescriptor) ∈ u.methods.map (Member.textsIn u.pool)

instance (u : ClassFile) : Decidable u.DeclaresConstructor :=
  inferInstanceAs (Decidable (_ ∈ _))

theorem ClassFile.Declares.declaresConstructor_iff {u : ClassFile}
    {fs ms : List (String × String)} (h : u.Declares fs ms) :
    u.DeclaresConstructor ↔ (Scan.constructorName, Scan.plainDescriptor) ∈ ms := by
  rw [DeclaresConstructor, map_textsIn h.methods, List.mem_map_of_injective except_ok_injective]

namespace Packed

variable {index : TypeIndex} {settings : Settings} {versions : VersionRange} {b : Bytes}
  {u : ClassFile} {r : Woven} {layout : PackedLayout} {f : PackedField}

theorem not_mem_methodTexts (layout : PackedLayout) :
    (Scan.constructorName, Scan.plainDescriptor) ∉ methodTexts layout := by
  -- the names do not depend on the owner
  have htexts : (capacityDesign "" layout :: accessorDesigns "" layout).map MethodDesign.texts =
      methodTexts layout := map_texts_designs
  rw [← htexts]
  intro hmem
  obtain ⟨d, hd, hsame⟩ := List.mem_map.1 hmem
  exact name_ne_of_mem (List.nil_subset _) hd (congrArg Prod.fst hsame)

/-- **Packing neither adds a constructor nor takes one away.** -/
theorem declaresConstructor_iff_of_weave (hread : ClassFile.read versions b = .ok u)
    (h : u.weave index settings = .ok (some r)) (hpacked : r.strategy = .packed) :
    r.unit.DeclaresConstructor ↔ u.DeclaresConstructor := by
  obtain ⟨fs, ms, hu⟩ := ClassFile.exists_declares_of_read hread
  obtain ⟨layout, v, -, happlied, hpool, heq⟩ := ClassFile.applied_of_weave h hpacked
  obtain ⟨statics, inits, -, hv, hinits⟩ := happlied.declares hu
  have hr := hv.mono hpool (by rw [heq]) (by rw [heq])
  have hadded : (Scan.constructorName, Scan.plainDescriptor) ∉ inits := by
    rcases hinits with rfl | ⟨rfl, -⟩
    · exact List.not_mem_nil
    · decide
  rw [hr.declaresConstructor_iff, hu.declaresConstructor_iff, List.mem_append, List.mem_append]
  simp only [hadded, not_mem_methodTexts, or_false]

/-- **The getter of a nested component** creates the object that stands for it unless there is one,
by the constructor without parameters. -/
theorem exists_getter_of_weave (h : u.weave index settings = .ok (some r))
    (hpacked : r.strategy = .packed) (hlayout : r.layout? = some layout) (hf : f ∈ layout.fields)
    {nested : String} (hkind : f.kind = .object nested) :
    ∃ m ∈ r.unit.methods,
      (getterDesign r.name layout f).Realized r.unit.needsFrames r.unit.pool m ∧
      .guarded .nonNull (createFlyweight r.name f nested) ∈ (getterDesign r.name layout f).code ∧
      .invoke .special (constructorCall nested) ∈ createFlyweight r.name f nested := by
  obtain ⟨layout', v, hlayout', happlied, hpool, heq⟩ := ClassFile.applied_of_weave h hpacked
  obtain rfl := Option.some.inj (hlayout'.symm.trans hlayout)
  obtain ⟨inits, -, hmethods⟩ := happlied.methods
  obtain ⟨m, hm, hgetter⟩ := exists_of_mem_left hmethods (List.mem_append_right _
    (List.mem_cons_of_mem _ (List.mem_flatMap.2 ⟨f, hf, List.mem_cons_self⟩)))
  have hframes : r.unit.needsFrames = u.needsFrames := by
    rw [heq]
    exact congrArg (fun major => decide (ClassFile.firstFramedMajor ≤ major))
      happlied.conserved.major
  refine ⟨m, ?_, hframes ▸ hgetter.mono hpool, ?_, ?_⟩
  · rw [heq]
    exact List.mem_of_mem_drop hm
  · rw [getterDesign_code_object hkind, nestedGetterCode]
    simp
  · simp [createFlyweight]

end Packed

namespace Run

open MemoryStore (storage)

variable {settings : Settings} {s s' : MemoryStore} {report : Report} {a w : Woven}
  {layout : PackedLayout} {f : PackedField}

/-- **The constructors of nested components.**  In every schedule that is not cancelled, let a
packed unit have a component of a type that was woven in the same run.  Its getter creates an object
of that type on first use, by the constructor without parameters.  The type was packed as well, and
it has that constructor just when it was declared in the unit that was read. -/
theorem constructors_of_woven (h : Scheduled settings s report s' false) (ha : a ∈ report.woven)
    (hpacked : a.strategy = .packed) (hlayout : a.layout? = some layout)
    (hf : f ∈ layout.fields) (hw : w ∈ report.woven) (hkind : f.kind = .object w.name) :
    (∃ m ∈ a.unit.methods,
      (Packed.getterDesign a.name layout f).Realized a.unit.needsFrames a.unit.pool m ∧
      .guarded .nonNull (Packed.createFlyweight a.name f w.name) ∈
        (Packed.getterDesign a.name layout f).code ∧
      .invoke .special (Packed.constructorCall w.name) ∈
        Packed.createFlyweight a.name f w.name) ∧
    w.strategy = .packed ∧ ∃ b u, s.get? w.name = some b ∧
      ClassFile.read settings.versions b = .ok u ∧
        (w.unit.DeclaresConstructor ↔ u.DeclaresConstructor) := by
  obtain ⟨c, outcomes, hended, -, hflag⟩ := ended_of_scheduled h
  obtain ⟨task, htask, hwoven⟩ := hended.mem_woven.1 ha
  obtain ⟨-, hweave, -⟩ := hended.weave_of_isWoven htask hwoven
  refine ⟨Packed.exists_getter_of_weave hweave hpacked hlayout hf hkind, ?_⟩
  -- the index knows the type of the component as packed
  obtain ⟨-, layout', hlayout', hpackable⟩ := Packed.packed_of_weave hweave hpacked
  obtain rfl := Option.some.inj (hlayout'.symm.trans hlayout)
  have hkinds := hpackable f hf
  rw [hkind] at hkinds
  simp only [ValueKind.isPackable, TypeIndex.isPacked, Bool.and_eq_true, beq_iff_eq] at hkinds
  obtain ⟨u, scan, hmem, hscan, hdeclared⟩ :=
    hended.covers.index w.name .packed hkinds.2 (by decide)
  have hweave' := (hended.mem_woven_iff hflag.symm hmem).1 ⟨hw, rfl⟩
  have hpacked' : w.strategy = .packed := (strategy_of_weave hscan hweave').trans hdeclared
  obtain ⟨hread, -⟩ := hended.covers.units w.name u hmem
  obtain ⟨b, hb, hread⟩ := readUnit_storage.1 hread
  exact ⟨hpacked', b, u, hb, hread,
    Packed.declaresConstructor_iff_of_weave hread hweave' hpacked'⟩

/-- A unit without fields, and one with a component of its type.  Neither has a constructor. -/
def bareComponents : MemoryStore :=
  { units :=
      { entries := [("A", (component "A" [6] []).write.toOption.getD []),
          ("C", (component "C" [6] [(8, 10)]).write.toOption.getD [])]
        distinct := (by decide : ["A", "C"].Nodup) } }

theorem load_bareComponents :
    let loaded := load (storage false) {} bareComponents bareComponents.names
    loaded.units = [("A", component "A" [6] []), ("C", component "C" [6] [(8, 10)])] ∧
      loaded.index = (FiniteMap.empty.insert "A" .packed).insert "C" .packed := by
  have hnames : bareComponents.names = ["A", "C"] :=
    List.mergeSort_of_pairwise (by decide : ["A", "C"].Pairwise fun a b => !(b < a))
  rw [hnames]
  decide +kernel

/-- Both are packed, and the getter of the second has no constructor to call. -/
theorem constructors_of_woven_bareComponents :
    ∃ report s', Scheduled {} bareComponents report s' false ∧
      ∃ a ∈ report.woven, a.strategy = .packed ∧ ∃ layout, a.layout? = some layout ∧
        ∃ f ∈ layout.fields, ∃ w ∈ report.woven, f.kind = .object w.name ∧
          (∃ m ∈ a.unit.methods, (Packed.getterDesign a.name layout f).Realized
            a.unit.needsFrames a.unit.pool m) ∧ ¬ w.unit.DeclaresConstructor := by
  obtain ⟨report, s', -, hscheduled⟩ := scheduled_run {} false bareComponents
  obtain ⟨c, outcomes, hended, -, hflag⟩ :=
    ended_of_scheduled hscheduled
  obtain ⟨hunits, hindex⟩ := load_bareComponents
  have hmem (name : String) (u : ClassFile) (v : Woven)
      (h : (name, u) ∈ [("A", component "A" [6] []), ("C", component "C" [6] [(8, 10)])]) :
      v ∈ report.woven ∧ v.name = name ↔
        u.weave ((FiniteMap.empty.insert "A" .packed).insert "C" .packed) {} = .ok (some v) :=
    hindex ▸ hended.mem_woven_iff hflag.symm (hunits ▸ h)
  have hweaveA : Option.map Woven.strategy <$> (component "A" [6] []).weave
      ((FiniteMap.empty.insert "A" .packed).insert "C" .packed) {} = .ok (some .packed) := by
    decide +kernel
  have hweaveC : Option.map (fun v => (v.strategy, v.layout?)) <$>
      (component "C" [6] [(8, 10)]).weave
        ((FiniteMap.empty.insert "A" .packed).insert "C" .packed) {} =
      .ok (some (.packed, some ⟨4, [⟨"x", .object "A", 0, 4⟩]⟩)) := by
    decide +kernel
  obtain ⟨w, hw, -⟩ := except_map_some_eq_ok.1 hweaveA
  obtain ⟨a, ha, hboth⟩ := except_map_some_eq_ok.1 hweaveC
  obtain ⟨hpacked, hlayout⟩ := Prod.mk.inj hboth
  obtain ⟨hw, hname⟩ := (hmem "A" _ w (by simp)).2 hw
  obtain ⟨ha, -⟩ := (hmem "C" _ a (by simp)).2 ha
  obtain ⟨⟨m, hm, hgetter, -⟩, -, b, u, hb, hread, hiff⟩ := constructors_of_woven
    hscheduled ha hpacked hlayout List.mem_cons_self hw
      (by rw [hname])
  refine ⟨report, s', hscheduled, a, ha, hpacked, _, hlayout, _,
    List.mem_cons_self, w, hw, by rw [hname], ⟨m, hm, hgetter⟩, ?_⟩
  rw [hiff]
  -- the unit that was read is the first one, which has no methods
  have hfirst : bareComponents.get? "A" = some ((component "A" [6] []).write.toOption.getD []) :=
    rfl
  have hback : ClassFile.read {} ((component "A" [6] []).write.toOption.getD []) =
      .ok (component "A" [6] []) := by
    decide +kernel
  rw [hname, hfirst] at hb
  obtain rfl := Option.some.inj hb
  obtain rfl := Except.ok.inj (hback.symm.trans hread)
  decide +kernel

end Run

end ClassWeave
