import ClassWeave.Proofs.Run.Nested
import ClassWeave.Proofs.Weaving.Locality

/-!
# Units do not affect each other

What becomes of a unit in a run depends on its own bytes, and on what the index of all units knows
of its superclass and of the types of its fields.

* `Report.Tells` : what a report tells of a unit.
* `Run.fate` : what becomes of a unit that was read, unless the run is cancelled.
* `Run.Ended.exists_tells` : a report tells one thing of each unit, which is its fate unless the run
  is cancelled.
* `Run.Accounts.get?_of_tells` : what is stored afterwards, by what the report tells.
* `Run.same_of_agree` : units with the same bytes end the same way in two runs whose indexes agree
  on them.
-/

namespace ClassWeave

/-- A report tells that this has become of the unit stored under a name. -/
def Report.Tells (r : Report) (name : String) : Run.Outcome → Prop
  | .woven w => w ∈ r.woven ∧ w.name = name
  | .untouched => name ∈ r.untouched
  | .failed error => { name, error } ∈ r.failed
  | .cancelled => name ∈ r.cancelled

namespace Run

open MemoryStore (storage)

variable {settings : Settings} {index : TypeIndex} {s s' t t' : MemoryStore} {name : String}
  {report report' : Report} {isCancelled : Bool} {loaded : Loaded} {c : Snapshot}
  {outcomes : List (String × Outcome)} {outcome : Outcome}

/-! ### What a report tells -/

/-- Failures of reading and outcomes of work, in one list. -/
def Loaded.told (loaded : Loaded) (outcomes : List (String × Outcome)) : List (String × Outcome) :=
  loaded.failed.map (fun f => (f.name, .failed f.error)) ++ outcomes

theorem mem_told : (name, outcome) ∈ loaded.told outcomes ↔
    (∃ error, outcome = .failed error ∧ { name, error } ∈ loaded.failed) ∨
      (name, outcome) ∈ outcomes := by
  rw [Loaded.told, List.mem_append]
  refine or_congr_left ⟨fun h => ?_, ?_⟩
  · obtain ⟨⟨_, error⟩, hf, heq⟩ := List.mem_map.1 h
    cases heq
    exact ⟨error, rfl, hf⟩
  · rintro ⟨error, rfl, hf⟩
    exact List.mem_map.2 ⟨_, hf, rfl⟩

namespace Ended

theorem tells_iff (h : Ended settings s report c loaded outcomes) :
    report.Tells name outcome ↔ (name, outcome) ∈ loaded.told outcomes := by
  rw [mem_told, h.report]
  cases outcome with
  | woven w =>
    simp only [Report.Tells, mem_woven_report, reduceCtorEq, false_and, exists_false, false_or]
    constructor
    · rintro ⟨⟨⟨other, outcome⟩, hmem, heq⟩, rfl⟩
      obtain rfl : outcome = .woven w := heq
      rwa [h.name_of_mem_outcomes hmem]
    · intro hmem
      exact ⟨⟨_, hmem, rfl⟩, h.name_of_mem_outcomes hmem⟩
  | untouched => simp [Report.Tells, mem_untouched_report]
  | failed error => simp [Report.Tells, mem_failed_report]
  | cancelled => simp [Report.Tells, mem_cancelled_report]

theorem names_told (h : Ended settings s report c loaded outcomes) :
    ((loaded.told outcomes).map Prod.fst).Perm s.names := by
  rw [Loaded.told, List.map_append, List.map_map, h.names_outcomes]
  exact List.perm_append_comm.trans h.covers.names

end Ended

/-! ### What becomes of a unit -/

/-- What becomes of a unit that was read and scanned, or not, unless the run is cancelled. -/
def fate (settings : Settings) (index : TypeIndex) : Except Error ClassFile → Outcome
  | .ok u => outcomeOf settings index u
  | .error error => .failed error

/-- The index of all units in memory. -/
def indexOf (settings : Settings) (s : MemoryStore) : TypeIndex :=
  (load (storage false) settings s s.names).index

/-- **A report tells one thing of each unit**: its fate, or that the run was cancelled. -/
theorem Ended.exists_tells
    (h : Ended settings s report c (load (storage false) settings s s.names) outcomes)
    (hname : name ∈ s.names) : ∃ outcome, (∀ o, report.Tells name o ↔ o = outcome) ∧
      (outcome = fate settings (indexOf settings s)
          (readScanned (storage false) settings s name) ∨
        outcome = .cancelled ∧ c.isCancelled = true) := by
  obtain ⟨⟨_, outcome⟩, hmem, rfl⟩ := List.mem_map.1 (h.names_told.mem_iff.2 hname)
  refine ⟨outcome, fun o => h.tells_iff.trans ⟨fun ho => ?_, fun ho => ho ▸ hmem⟩, ?_⟩
  · -- no name is told twice
    have hnodup := h.names_told.nodup_iff.2 (nodup_names s)
    exact congrArg Prod.snd (List.inj_on_of_nodup_map hnodup ho hmem rfl)
  · obtain ⟨error, rfl, hfailed⟩ | hdone := mem_told.1 hmem
    · rw [(mem_failed_load.1 hfailed).2]
      exact .inl rfl
    · obtain ⟨task, htask, hsame, hprogress⟩ := exists_of_mem_right h.ends hdone
      have hunit : (task.name, task.unit) ∈ (load (storage false) settings s s.names).units := by
        rw [← h.consistent.units]
        exact List.mem_map.2 ⟨task, htask, rfl⟩
      rw [hsame] at hunit
      rw [(mem_units_load.1 hunit).2]
      exact h.consistent.outcomes task htask outcome hprogress

/-- Afterwards what the report tells of a unit is written back. -/
theorem Accounts.get?_of_tells (h : Accounts settings s report s')
    (houtcome : ∀ o, report.Tells name o ↔ o = outcome) :
    s'.get? name = (writeBack settings name outcome s).get? name := by
  cases hwrites : settings.writesOutput with
  | false =>
    rw [h.dry hwrites]
    cases outcome <;> simp [writeBack, hwrites]
  | true =>
    have hkept (hne : ∀ w, outcome ≠ .woven w) : s'.get? name = s.get? name :=
      h.kept hwrites name fun w hw hsame => hne w ((houtcome (.woven w)).1 ⟨hw, hsame⟩).symm
    cases outcome with
    | woven w =>
      obtain ⟨hw, rfl⟩ := (houtcome (.woven w)).2 rfl
      simp only [h.bytes hwrites w hw, writeBack, hwrites, if_true, MemoryStore.get?_write]
    | untouched | failed | cancelled => exact hkept (by simp)

theorem get?_writeBack_congr (h : s.get? name = t.get? name) :
    (writeBack settings name outcome s).get? name =
      (writeBack settings name outcome t).get? name := by
  cases outcome with
  | woven w =>
    simp only [writeBack]
    split
    · simp only [MemoryStore.get?_write, if_true]
    · exact h
  | untouched | failed | cancelled => exact h

/-! ### Two runs -/

theorem readScanned_congr (h : s.get? name = t.get? name) :
    readScanned (storage false) settings s name = readScanned (storage false) settings t name := by
  rw [readScanned, readScanned, readUnit_congr h]

/-- Indexes that agree on a unit decide its fate alike. -/
theorem fate_congr {index' : TypeIndex} {scanned : Except Error ClassFile}
    (h : ∀ u, scanned = .ok u → index.AgreeOn u index') :
    fate settings index scanned = fate settings index' scanned := by
  cases scanned with
  | ok u => simp only [fate, outcomeOf, ClassFile.weave_congr (h u rfl)]
  | error => rfl

/-- **Units do not affect each other.**  Two indexes that agree on the superclass of a unit and on
the types of its instance fields have it woven alike.  So, whatever else there is in two stores that
hold the same bytes under a name, and whatever becomes of it: if their indexes agree on the unit
that is read from these bytes, then in every schedule of either run this unit ends the same way, and
the same bytes are stored under its name afterwards.  Only a run that is cancelled before it comes
to the unit can differ. -/
theorem same_of_agree (settings : Settings) :
    (∀ u index index', TypeIndex.AgreeOn u index index' →
      u.weave index settings = u.weave index' settings) ∧
    ∀ s t : MemoryStore, ∀ name b, s.get? name = some b → t.get? name = some b →
      (∀ u, ClassFile.read settings.versions b = .ok u →
        TypeIndex.AgreeOn u (indexOf settings s) (indexOf settings t)) →
      ∀ report s' isCancelled report' t' isCancelled',
        Scheduled settings s report s' isCancelled →
        Scheduled settings t report' t' isCancelled' →
        (isCancelled = false ∧ isCancelled' = false ∨
          (name ∈ report.cancelled ↔ name ∈ report'.cancelled)) →
        (∃ outcome, (∀ o, report.Tells name o ↔ o = outcome) ∧
          ∀ o, report'.Tells name o ↔ o = outcome) ∧ s'.get? name = t'.get? name := by
  refine ⟨fun u index index' h => ClassFile.weave_congr h settings, ?_⟩
  intro s t name b hsb htb hagree report s' isCancelled report' t' isCancelled' h h' hcancel
  have hnames {r : MemoryStore} (hr : r.get? name = some b) : name ∈ r.names := by
    rw [mem_names, hr]
    rfl
  obtain ⟨c, outcomes, hended, -, rfl⟩ := ended_of_scheduled h
  obtain ⟨c', outcomes', hended', -, rfl⟩ := ended_of_scheduled h'
  obtain ⟨outcome, htells, hfate⟩ := hended.exists_tells (hnames hsb)
  obtain ⟨outcome', htells', hfate'⟩ := hended'.exists_tells (hnames htb)
  have hsame : fate settings (indexOf settings s) (readScanned (storage false) settings s name) =
      fate settings (indexOf settings t) (readScanned (storage false) settings t name) := by
    rw [← readScanned_congr (hsb.trans htb.symm)]
    refine fate_congr fun u hu => hagree u ?_
    obtain ⟨b', hb', hread⟩ := readUnit_storage.1 (readScanned_eq_ok.1 hu).1
    obtain rfl := Option.some.inj (hsb.symm.trans hb')
    exact hread
  have houtcome : outcome' = outcome := by
    rcases hfate with rfl | ⟨rfl, hflag⟩ <;> rcases hfate' with rfl | ⟨rfl, hflag'⟩
    · exact hsame.symm
    · rcases hcancel with ⟨-, hfalse⟩ | hiff
      · exact absurd (hflag'.symm.trans hfalse) (by decide)
      · have htold := (htells .cancelled).1 (hiff.2 ((htells' .cancelled).2 rfl))
        exact htold
    · rcases hcancel with ⟨hfalse, -⟩ | hiff
      · exact absurd (hflag.symm.trans hfalse) (by decide)
      · have htold := (htells' .cancelled).1 (hiff.1 ((htells .cancelled).2 rfl))
        exact htold.symm
    · rfl
  subst houtcome
  refine ⟨⟨outcome', htells, htells'⟩, ?_⟩
  rw [h.accounts.get?_of_tells htells, h'.accounts.get?_of_tells htells']
  exact get?_writeBack_congr (hsb.trans htb.symm)

/-- The same unit with components, among others: the type of the first one can be packed here, and
there is one more unit that cannot. -/
def otherComponents : MemoryStore :=
  { units :=
      { entries := [("A", (component "A" [6] []).write.toOption.getD []),
          ("B", markedOnly.write.toOption.getD []), ("C", withComponents.write.toOption.getD []),
          ("D", (component "D" [6] [(8, 9)]).write.toOption.getD [])]
        distinct := (by decide : ["A", "B", "C", "D"].Nodup) } }

theorem index_otherComponents : indexOf {} otherComponents =
    (((FiniteMap.empty.insert "A" .packed).insert "B" .packed).insert "C" .packed).insert "D"
      .packed := by
  have hnames : otherComponents.names = ["A", "B", "C", "D"] :=
    List.mergeSort_of_pairwise (by decide : ["A", "B", "C", "D"].Pairwise fun a b => !(b < a))
  rw [indexOf, hnames]
  decide +kernel

theorem agreeOn_components : TypeIndex.AgreeOn withComponents (indexOf {} components)
    (indexOf {} otherComponents) := by
  have hsuper : withComponents.superName? = .ok (some "java/lang/Object") := by decide +kernel
  have hview : withComponents.fieldsView.toOption.map (·.map (·.kind)) =
      some [.object "A", .object "B"] := by
    decide +kernel
  rw [show indexOf {} components = _ from index_components, index_otherComponents]
  refine ⟨fun name hname => ?_, fun view hfields f hf _ type htype => ?_⟩
  · obtain rfl := Option.some.inj (Except.ok.inj (hsuper.symm.trans hname))
    decide
  · rw [hfields] at hview
    have hmem : f.kind ∈ [ValueKind.object "A", ValueKind.object "B"] := by
      rw [← Option.some.inj hview]
      exact List.mem_map_of_mem hf
    rw [htype] at hmem
    simp only [List.mem_cons, ValueKind.object.injEq, List.not_mem_nil, or_false] at hmem
    rcases hmem with rfl | rfl <;> decide

/-- The unit with components is packed in both stores, though its neighbours end differently. -/
theorem same_of_agree_components :
    withComponents.weave (indexOf {} components) {} =
      withComponents.weave (indexOf {} otherComponents) {} ∧
    ∃ report s' report' t' w, Scheduled {} components report s' false ∧
      Scheduled {} otherComponents report' t' false ∧ w.name = "C" ∧ w ∈ report.woven ∧
      w ∈ report'.woven ∧ s'.get? "C" = t'.get? "C" := by
  obtain ⟨hweaves, hruns⟩ := same_of_agree {}
  refine ⟨hweaves _ _ _ agreeOn_components, ?_⟩
  obtain ⟨report, s', -, h⟩ := scheduled_run {} false components
  obtain ⟨report', t', -, h'⟩ := scheduled_run {} false otherComponents
  have hread : ClassFile.read {} (withComponents.write.toOption.getD []) = .ok withComponents := by
    decide +kernel
  obtain ⟨⟨outcome, htells, htells'⟩, hbytes⟩ :=
    hruns components otherComponents "C" _ rfl rfl
      (fun u hu => by
        obtain rfl := Except.ok.inj (hread.symm.trans hu)
        exact agreeOn_components)
      report s' false report' t' false h h' (.inl ⟨rfl, rfl⟩)
  obtain ⟨c, outcomes, hended, -, hflag⟩ := ended_of_scheduled h
  obtain ⟨-, -, w, hweave, -⟩ := weave_components
  have hmem :
      ("C", withComponents) ∈ (load (storage false) {} components components.names).units := by
    rw [units_components]
    simp
  have hw : report.Tells "C" (.woven w) := (hended.mem_woven_iff hflag.symm hmem).2 hweave
  obtain rfl := (htells _).1 hw
  have hw' : report'.Tells "C" (.woven w) := (htells' _).2 rfl
  exact ⟨report, s', report', t', w, h, h', hw.2, hw.1, hw'.1, hbytes⟩

end Run

end ClassWeave
