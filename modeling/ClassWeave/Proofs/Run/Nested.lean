import ClassWeave.Proofs.Run.Accounting

/-!
# The types of nested components

A unit is packed knowing what the types of its nested components declare, not what becomes of them:
each unit is woven on its own, and a failure of one does not keep the others from being woven.

* `ClassFile.DeclaresIndex`, `Packed.packed_of_weave` : packed units have the field for the number
  of a slot.
* `Run.NestedOutcome` : what a run makes of the type of a nested component.
* `Run.nested_of_woven` : one of these outcomes, for every nested component of a packed unit.
* `Run.scheduled_components` : a unit is packed though the types of its components are left without
  that field.
-/

namespace ClassWeave

namespace ClassFile

/-- The unit has an instance field for the number of a slot. -/
def DeclaresIndex (u : ClassFile) : Prop :=
  ∃ f ∈ u.fields, f.isInstance = true ∧ f.nameIn u.pool = .ok Packed.indexField ∧
    f.descriptorIn u.pool = .ok "I"

instance (u : ClassFile) : Decidable u.DeclaresIndex :=
  inferInstanceAs (Decidable (∃ f ∈ u.fields, _))

variable {u t : ClassFile}

theorem DeclaresIndex.mono (h : u.DeclaresIndex) (hpool : u.pool.Extends t.pool)
    (hfields : u.fields ⊆ t.fields) : t.DeclaresIndex := by
  obtain ⟨f, hf, hinstance, hname, hdescriptor⟩ := h
  exact ⟨f, hfields hf, hinstance, hpool.utf8 hname, hpool.utf8 hdescriptor⟩

/-- The unit is what packing some unit gave. -/
def WasPacked (u : ClassFile) : Prop :=
  ∃ (index : TypeIndex) (settings : Settings) (v : ClassFile) (r : Woven),
    v.weave index settings = .ok (some r) ∧ r.strategy = .packed ∧ r.unit = u

theorem Gained.fields_subset {fs : List FieldDesign} {ms : List MethodDesign}
    (h : u.Gained fs ms t) : u.fields ⊆ t.fields := by
  obtain ⟨fields, methods, -, -, heq⟩ := h.members
  rw [heq]
  exact List.subset_append_left _ _

end ClassFile

namespace Packed

/-- Packing adds the field for the number of the slot. -/
theorem Applied.declaresIndex {index : TypeIndex} {owner : String} {layout : PackedLayout}
    {u t : ClassFile} (h : Applied index owner layout u t) : t.DeclaresIndex := by
  obtain ⟨u₁, u₂, u₃, u₄, -, hshared, ⟨init?, -, -, hinit⟩, hmethods, hmoved⟩ := h.stages
  have h₂ : u₂.DeclaresIndex := by
    obtain ⟨fields, methods, hfields, -, heq⟩ := hshared.members
    obtain ⟨f, rest, hf, -, rfl⟩ := List.forall₂_cons_left_iff.1 hfields
    refine ⟨f, ?_, ?_, hf.name, hf.descriptor⟩
    · rw [heq]
      exact List.mem_append_right _ List.mem_cons_self
    · rw [Member.isInstance, hf.access]
      decide
  have h₃ := h₂.mono hinit.pool hinit.fields_subset
  have h₄ := h₃.mono hmethods.pool hmethods.fields_subset
  rcases hmoved with ⟨-, hreparented⟩ | ⟨-, rfl⟩
  · refine h₄.mono hreparented.pool ?_
    rw [hreparented.rest]
    exact List.Subset.refl _
  · exact h₄

variable {index : TypeIndex} {settings : Settings} {u : ClassFile} {r : Woven}

/-- **A packed unit** has the field for the number of the slot, and its layout holds nothing but
fields that can be packed. -/
theorem packed_of_weave (h : u.weave index settings = .ok (some r))
    (hpacked : r.strategy = .packed) : r.unit.DeclaresIndex ∧
      ∃ layout, r.layout? = some layout ∧ ∀ f ∈ layout.fields, f.kind.isPackable index r.name := by
  obtain ⟨_, -, -, -, hname, -, hvalid, -, -⟩ := ClassFile.weave_eq_ok h
  rw [hpacked] at hvalid
  obtain ⟨layout, v, hlayout, happlied, hpool, heq⟩ := ClassFile.applied_of_weave h hpacked
  refine ⟨?_, layout, hlayout, fun f hf => ?_⟩
  · refine happlied.declaresIndex.mono hpool ?_
    rw [heq]
    exact List.Subset.refl _
  · obtain ⟨view, hview, rfl⟩ := happlied.view
    exact isPackable_of_validate hvalid hname hview hf

theorem declaresIndex_of_wasPacked (h : u.WasPacked) : u.DeclaresIndex := by
  obtain ⟨index, settings, v, r, hweave, hpacked, rfl⟩ := h
  exact (packed_of_weave hweave hpacked).1

end Packed

namespace Run

open MemoryStore (storage)

variable {settings : Settings} {s s' : MemoryStore} {report : Report} {name : String}
  {u : ClassFile} {scan : Scan} {versions : VersionRange}

/-- What a run makes of the type of a nested component, which was read and scanned as told. -/
inductive NestedOutcome (settings : Settings) (s : MemoryStore) (report : Report)
    (s' : MemoryStore) (name : String) (u : ClassFile) (scan : Scan) : Prop
  /-- It is packed as well.  Its bytes are replaced, and are read as the packed unit if this keeps
  to the limits that writing leaves unchecked. -/
  | packed (w : Woven) : w ∈ report.woven → w.name = name → w.strategy = .packed →
      s'.get? name = some w.bytes → w.unit.DeclaresIndex →
        (w.unit.WithinLimits → ClassFile.read settings.versions w.bytes = .ok w.unit) →
          NestedOutcome settings s report s' name u scan
  /-- It is marked as woven before, and is left alone. -/
  | untouched : name ∈ report.untouched → scan.woven?.isSome → s'.get? name = s.get? name →
      (u.WasPacked → u.DeclaresIndex) → NestedOutcome settings s report s' name u scan
  /-- It failed for reasons of its own, and is left alone. -/
  | failed (error : Error) : { name, error } ∈ report.failed → s'.get? name = s.get? name →
      NestedOutcome settings s report s' name u scan

section

variable {c : Snapshot} {loaded : Loaded} {outcomes : List (String × Outcome)}

/-- What becomes of a unit that declares to be packed. -/
theorem Ended.nestedOutcome (h : Ended settings s report c loaded outcomes)
    (hflag : c.isCancelled = false) (hwrites : settings.writesOutput = true)
    (haccounts : Accounts settings s report s') (hmem : (name, u) ∈ loaded.units)
    (hscan : u.scan = .ok scan) (hdeclared : scan.declared = .packed) :
    NestedOutcome settings s report s' name u scan := by
  obtain ⟨hread, -⟩ := h.covers.units name u hmem
  obtain ⟨b, -, hread⟩ := readUnit_storage.1 hread
  have houtcome := h.mem_outcomes hflag hmem
  have hkept (hno : ∀ w, u.weave loaded.index settings ≠ .ok (some w)) :
      s'.get? name = s.get? name :=
    haccounts.kept hwrites name fun w hw hname => hno w ((h.mem_woven_iff hflag hmem).1 ⟨hw, hname⟩)
  unfold outcomeOf at houtcome
  cases hweave : u.weave loaded.index settings with
  | error e =>
    rw [hweave] at houtcome
    refine .failed e ?_ (hkept (by simp [hweave]))
    rw [h.report]
    exact mem_failed_report.2 (.inr houtcome)
  | ok woven? =>
    cases woven? with
    | none =>
      rw [hweave] at houtcome
      refine .untouched ?_ ?_ (hkept (by simp [hweave])) Packed.declaresIndex_of_wasPacked
      · rw [h.report]
        exact mem_untouched_report.2 houtcome
      · obtain ⟨scan', hscan', heffective⟩ := ClassFile.weave_eq_none.1 hweave
        obtain rfl := Except.ok.inj (hscan.symm.trans hscan')
        rw [effective_of_scan hscan, hdeclared] at heffective
        split_ifs at heffective with hsome
        exact hsome
    | some w =>
      obtain ⟨hw, hname⟩ := (h.mem_woven_iff hflag hmem).2 hweave
      have hpacked : w.strategy = .packed := (strategy_of_weave hscan hweave).trans hdeclared
      refine .packed w hw hname hpacked ?_ (Packed.packed_of_weave hweave hpacked).1 ?_
      · rw [← hname]
        exact haccounts.bytes hwrites w hw
      · obtain ⟨_, -, -, -, -, -, -, -, hbytes⟩ := ClassFile.weave_eq_ok hweave
        exact ((ClassFile.sound_weave hread hweave).read_iff hbytes).2

end

/-- **The types of nested components.**  In every schedule that is not cancelled and writes its
output, the type of every component in a packed unit is another unit that declares to be packed.
Either it is packed in this run as well, or it is marked as woven before, or it failed; in the last
two cases it is left as it is. -/
theorem nested_of_woven (hwrites : settings.writesOutput = true)
    (h : Scheduled settings s report s' false) {a : Woven} (ha : a ∈ report.woven)
    (hpacked : a.strategy = .packed) : ∃ layout, a.layout? = some layout ∧
      ∀ f ∈ layout.fields, ∀ name, f.kind = .object name → name ≠ a.name ∧
        ∃ b u scan, s.get? name = some b ∧ ClassFile.read settings.versions b = .ok u ∧
          u.scan = .ok scan ∧ scan.name = name ∧ scan.declared = .packed ∧
            NestedOutcome settings s report s' name u scan := by
  have haccounts := h.accounts
  obtain ⟨c, outcomes, hended, -, hflag⟩ := ended_of_scheduled h
  obtain ⟨task, htask, hwoven⟩ := hended.mem_woven.1 ha
  obtain ⟨-, hweave, -⟩ := hended.weave_of_isWoven htask hwoven
  obtain ⟨-, layout, hlayout, hpackable⟩ := Packed.packed_of_weave hweave hpacked
  refine ⟨layout, hlayout, fun f hf name hkind => ?_⟩
  have hkinds := hpackable f hf
  rw [hkind] at hkinds
  simp only [ValueKind.isPackable, TypeIndex.isPacked, Bool.and_eq_true, bne_iff_ne, ne_eq,
    beq_iff_eq] at hkinds
  obtain ⟨hne, hindex⟩ := hkinds
  obtain ⟨u, scan, hmem, hscan, hdeclared⟩ := hended.covers.index name .packed hindex (by decide)
  obtain ⟨hread, scan', hscan', hname⟩ := hended.covers.units name u hmem
  obtain rfl := Except.ok.inj (hscan.symm.trans hscan')
  obtain ⟨b, hb, hread⟩ := readUnit_storage.1 hread
  exact ⟨hne, b, u, scan, hb, hread, hscan, hname, hdeclared,
    hended.nestedOutcome hflag.symm hwrites haccounts hmem hscan hdeclared⟩

/-! ### Components of types that are not packed -/

/-- The third unit is packed, and the others are not. -/
theorem scheduled_components : ∃ report s', Scheduled {} components report s' false ∧
    (∀ w ∈ report.woven, w.name ≠ "A" ∧ w.name ≠ "B") ∧
      ∃ w ∈ report.woven, w.strategy = .packed ∧
        w.layout? = some ⟨8, [⟨"x", .object "A", 0, 4⟩, ⟨"y", .object "B", 4, 4⟩]⟩ := by
  obtain ⟨report, s', -, hscheduled⟩ := scheduled_run {} false components
  obtain ⟨c, outcomes, hended, -, hflag⟩ :=
    ended_of_scheduled hscheduled
  obtain ⟨⟨error, hfails⟩, hskips, w, hweave, -, hstrategy, hlayout, -⟩ := weave_components
  have hmem (name : String) (u : ClassFile) (v : Woven)
      (h : (name, u) ∈ [("A", withArray), ("B", markedOnly), ("C", withComponents)]) :
      v ∈ report.woven ∧ v.name = name ↔ u.weave _ {} = .ok (some v) :=
    hended.mem_woven_iff hflag.symm (units_components ▸ h)
  refine ⟨report, s', hscheduled, fun v hv => ⟨fun hname => ?_, fun hname => ?_⟩, w, ?_,
    hstrategy, hlayout⟩
  · have hwoven := (hmem "A" withArray v (by simp)).1 ⟨hv, hname⟩
    rw [hfails] at hwoven
    cases hwoven
  · have hwoven := (hmem "B" markedOnly v (by simp)).1 ⟨hv, hname⟩
    rw [hskips] at hwoven
    cases hwoven
  · exact ((hmem "C" withComponents w (by simp)).2 hweave).1

/-- A unit was packed whose components are of types without the field for the number of a slot. -/
theorem not_declaresIndex_components :
    ({} : Settings).writesOutput = true ∧
    ∃ report s', Scheduled {} components report s' false ∧
      ∃ a ∈ report.woven, a.strategy = .packed ∧ ∃ layout, a.layout? = some layout ∧
        ∀ name ∈ ["A", "B"], (∃ f ∈ layout.fields, f.kind = .object name) ∧
          ¬ ∃ b u, s'.get? name = some b ∧ ClassFile.read {} b = .ok u ∧ u.DeclaresIndex := by
  obtain ⟨report, s', hscheduled, hothers, w, hw, hpacked, hlayout⟩ := scheduled_components
  have haccounts := hscheduled.accounts
  obtain ⟨⟨a, ha, hreadA⟩, b, hb, hreadB⟩ := read_components
  refine ⟨rfl, report, s', hscheduled, w, hw, hpacked, _, hlayout, ?_⟩
  rw [List.forall_mem_cons, List.forall_mem_singleton]
  refine ⟨⟨⟨_, List.mem_cons_self, rfl⟩, ?_⟩,
    ⟨_, List.mem_cons_of_mem _ List.mem_cons_self, rfl⟩, ?_⟩
  · rintro ⟨a', u, ha', hread, hdeclares⟩
    rw [haccounts.kept rfl "A" fun v hv => (hothers v hv).1, ha] at ha'
    obtain rfl := Option.some.inj ha'
    obtain rfl := Except.ok.inj (hreadA.symm.trans hread)
    exact absurd hdeclares (by decide +kernel)
  · rintro ⟨b', u, hb', hread, hdeclares⟩
    rw [haccounts.kept rfl "B" fun v hv => (hothers v hv).2, hb] at hb'
    obtain rfl := Option.some.inj hb'
    obtain rfl := Except.ok.inj (hreadB.symm.trans hread)
    exact absurd hdeclares (by decide +kernel)

/-- The first component in that unit is of a type that failed. -/
theorem nested_of_woven_components : ∃ report s', Scheduled {} components report s' false ∧
    ∃ a ∈ report.woven, a.strategy = .packed ∧ ∃ layout, a.layout? = some layout ∧
      (∃ f ∈ layout.fields, f.kind = .object "A") ∧
        ∃ error, { name := "A", error } ∈ report.failed ∧ s'.get? "A" = components.get? "A" := by
  obtain ⟨report, s', hscheduled, hothers, w, hw, hpacked, hlayout⟩ := scheduled_components
  obtain ⟨layout, hlayout', hnested⟩ :=
    nested_of_woven rfl hscheduled hw hpacked
  obtain rfl := Option.some.inj (hlayout'.symm.trans hlayout)
  obtain ⟨-, a, u, scan, ha, hread, hscan, -, -, houtcome⟩ :=
    hnested _ List.mem_cons_self "A" rfl
  obtain ⟨⟨a', ha', hread'⟩, -⟩ := read_components
  obtain rfl := Option.some.inj (ha.symm.trans ha')
  obtain rfl := Except.ok.inj (hread.symm.trans hread')
  refine ⟨report, s', hscheduled, w, hw, hpacked, _, hlayout, ⟨_, List.mem_cons_self, rfl⟩, ?_⟩
  cases houtcome with
  | packed v hv hname => exact absurd hname (hothers v hv).1
  | untouched _ hwoven =>
    have hnone : withArray.scan.toOption.bind (·.woven?) = none := by decide +kernel
    rw [hscan] at hnone
    rw [show scan.woven? = none from hnone] at hwoven
    cases hwoven
  | failed error hfailed hkept => exact ⟨error, hfailed, hkept⟩

end Run

end ClassWeave
