import ClassWeave.Proofs.Run.Nested
import ClassWeave.Proofs.Weaving.Rescan

/-!
# Running again

The woven units that a run has written back declare what they declared before, so a second run finds
the same index.  It leaves them alone, and ends as the first one did with all others.

* `Run.Loaded.mapUnits`, `Run.load_of_readsAs` : what reading all units comes to when some of them
  have been replaced.
* `Run.again`, `Run.outcomeOf_again` : a unit as the second run reads it, and what becomes of it.
* `Run.store_of_idle` : a run that weaves nothing leaves the store alone.
* `Run.unchanged_of_rerun` : a second run changes nothing.
-/

namespace ClassWeave

/-! ### Woven units -/

namespace ClassFile

variable {index : TypeIndex} {settings : Settings} {u : ClassFile} {scan : Scan} {w : Woven}

/-- A woven unit is scanned under the same name, and declares the same. -/
theorem scan_of_woven (hscan : u.scan = .ok scan) (h : u.weave index settings = .ok (some w)) :
    ∃ scan', w.unit.scan = .ok scan' ∧ scan'.name = w.name ∧ scan'.declared = scan.declared ∧
      scan'.effective = .none := by
  obtain ⟨scan', _, hscan', hdeclared, heffective, -⟩ := scan_of_weave h
  refine ⟨scan', hscan', ?_, hdeclared.trans (Run.strategy_of_weave hscan h), heffective⟩
  obtain ⟨_, _, _, _, _, _, _, hname, -, -, -, -, -, -, -, rfl⟩ := scan_eq_ok.1 hscan'
  exact Except.ok.inj (hname.symm.trans (name_of_woven h))

end ClassFile

/-! ### Sorted names -/

/-- Names that are the same but for their order are sorted alike. -/
theorem Report.mergeSort_eq_of_perm {as bs : List String} (h : as.Perm bs) :
    as.mergeSort nameLe = bs.mergeSort nameLe :=
  (((List.mergeSort_perm as _).trans h).trans (List.mergeSort_perm bs _).symm).eq_of_pairwise
    (fun _ _ _ _ hab hba => String.le_antisymm (Text.not_lt_iff_le.1 hab)
      (Text.not_lt_iff_le.1 hba))
    (Text.pairwise_mergeSort id as) (Text.pairwise_mergeSort id bs)

namespace Run

open MemoryStore (storage)

variable {settings : Settings} {index : TypeIndex} {s s' t t' : MemoryStore} {name : String}
  {names : List String} {report : Report} {isCancelled : Bool}

/-! ### Reading what was replaced -/

/-- Other units under the same names. -/
def Loaded.mapUnits (f : ClassFile → ClassFile) (loaded : Loaded) : Loaded :=
  { loaded with units := loaded.units.map fun unit => (unit.1, f unit.2) }

/-- What is stored under a name is read and scanned in the second store as in the first, only that
the unit may be replaced by another one that declares the same. -/
inductive ReadsAs (settings : Settings) (f : ClassFile → ClassFile) (s t : MemoryStore)
    (name : String) : Prop
  /-- Nothing can be read. -/
  | unreadable (error : Error) : readUnit (storage false) settings s name = .error error →
      readUnit (storage false) settings t name = .error error → ReadsAs settings f s t name
  /-- The unit cannot be scanned. -/
  | unscannable (u : ClassFile) (error : Error) : readUnit (storage false) settings s name = .ok u →
      scanUnit u name = .error error → readUnit (storage false) settings t name = .ok u →
      ReadsAs settings f s t name
  /-- The unit can be scanned, and so can what it is replaced by. -/
  | scanned (u : ClassFile) (scan scan' : Scan) :
      readUnit (storage false) settings s name = .ok u → scanUnit u name = .ok scan →
      readUnit (storage false) settings t name = .ok (f u) → scanUnit (f u) name = .ok scan' →
      scan'.declared = scan.declared → ReadsAs settings f s t name

variable {f : ClassFile → ClassFile}

/-- One more unit. -/
theorem ReadsAs.loadUnit (h : ReadsAs settings f s t name) (loaded : Loaded) :
    Run.loadUnit (storage false) settings t (loaded.mapUnits f) name =
      (Run.loadUnit (storage false) settings s loaded name).mapUnits f := by
  unfold Run.loadUnit
  cases h with
  | unreadable error hread hread' =>
    simp only [hread, hread']
    rfl
  | unscannable u error hread hscan hread' =>
    simp only [hread, hread', hscan]
    rfl
  | scanned u scan scan' hread hscan hread' hscan' hdeclared =>
    have hname : scan'.name = scan.name :=
      (scanUnit_eq_ok.1 hscan').2.trans (scanUnit_eq_ok.1 hscan).2.symm
    simp only [hread, hread', hscan, hscan', hdeclared, hname, Loaded.mapUnits, List.map_append,
      List.map_cons, List.map_nil]

/-- **Reading all units again** finds the same index and the same failures. -/
theorem load_of_readsAs (h : ∀ name ∈ names, ReadsAs settings f s t name) :
    load (storage false) settings t names = (load (storage false) settings s names).mapUnits f := by
  suffices hfold : ∀ loaded : Loaded,
      names.foldl (loadUnit (storage false) settings t) (loaded.mapUnits f) =
        (names.foldl (loadUnit (storage false) settings s) loaded).mapUnits f by
    exact hfold {}
  induction names with
  | nil =>
    intro loaded
    rfl
  | cons name names ih =>
    intro loaded
    rw [List.foldl_cons, (h name List.mem_cons_self).loadUnit]
    exact ih (fun name hname => h name (List.mem_cons_of_mem _ hname)) _

/-! ### What becomes of units in the second run -/

/-- A unit as the second run reads it. -/
def again (settings : Settings) (index : TypeIndex) (u : ClassFile) : ClassFile :=
  match outcomeOf settings index u with
  | .woven w => w.unit
  | _ => u

/-- What becomes of a unit in the second run, by what became of it in the first. -/
def Outcome.again : Outcome → Outcome
  | .woven _ => .untouched
  | outcome => outcome

/-- Woven units are left alone, and with the others all goes as in the first run. -/
theorem outcomeOf_again (u : ClassFile) : outcomeOf settings index (Run.again settings index u) =
    (outcomeOf settings index u).again := by
  unfold Run.again
  cases houtcome : outcomeOf settings index u with
  | woven w =>
    obtain ⟨scan, _, hscan, -, heffective, -⟩ :=
      ClassFile.scan_of_weave (outcomeOf_eq_woven.1 houtcome)
    have hnone : w.unit.weave index settings = .ok none :=
      ClassFile.weave_eq_none.2 ⟨scan, hscan, heffective⟩
    simp only [outcomeOf, hnone, Outcome.again]
  | untouched | failed | cancelled => exact houtcome

/-! ### The second report -/

section

variable {loaded : Loaded} {outcomes : List (String × Outcome)}

theorem report_eq : loaded.report outcomes = Report.sorted
    { woven := outcomes.filterMap woven?
      untouched := outcomes.filterMap untouched?
      failed := loaded.failed ++ outcomes.filterMap failed?
      cancelled := outcomes.filterMap cancelled? } := by
  rw [Loaded.report, foldl_record]
  rfl

/-- The outcomes of the second run, by those of the first. -/
def outcomesAgain (outcomes : List (String × Outcome)) : List (String × Outcome) :=
  outcomes.map fun outcome => (outcome.1, outcome.2.again)

theorem filterMap_woven?_again : (outcomesAgain outcomes).filterMap woven? = [] := by
  refine List.filterMap_eq_nil_iff.2 fun outcome hmem => ?_
  obtain ⟨⟨name, first⟩, -, rfl⟩ := List.mem_map.1 hmem
  cases first <;> rfl

theorem filterMap_failed?_again :
    (outcomesAgain outcomes).filterMap failed? = outcomes.filterMap failed? := by
  rw [outcomesAgain, List.filterMap_map]
  refine List.filterMap_congr fun ⟨name, first⟩ _ => ?_
  cases first <;> rfl

theorem filterMap_cancelled?_again (h : ∀ outcome ∈ outcomes, outcome.2 ≠ .cancelled) :
    (outcomesAgain outcomes).filterMap cancelled? = [] := by
  refine List.filterMap_eq_nil_iff.2 fun outcome hmem => ?_
  obtain ⟨⟨name, first⟩, hfirst, rfl⟩ := List.mem_map.1 hmem
  cases first with
  | cancelled => exact absurd rfl (h _ hfirst)
  | woven | untouched | failed => rfl

/-- What was woven or untouched is untouched. -/
theorem filterMap_untouched?_again (h : ∀ name w, (name, .woven w) ∈ outcomes → w.name = name) :
    ((outcomesAgain outcomes).filterMap untouched?).Perm
      (outcomes.filterMap untouched? ++ (outcomes.filterMap woven?).map (·.name)) := by
  induction outcomes with
  | nil => exact .refl _
  | cons outcome outcomes ih =>
    obtain ⟨name, first⟩ := outcome
    have hrest := ih fun name w hmem => h name w (List.mem_cons_of_mem _ hmem)
    cases first with
    | woven w =>
      obtain rfl : w.name = name := h name w List.mem_cons_self
      exact (hrest.cons w.name).trans List.perm_middle.symm
    | untouched => exact hrest.cons name
    | failed | cancelled => exact hrest

end

/-! ### The store -/

/-- A step leaves the store as it is, or writes what became of a unit. -/
theorem store_of_step {c c' : Snapshot} (h : Step settings index c c') : c'.store = c.store ∨
    ∃ task ∈ c.tasks, ∃ w, outcomeOf settings index task.unit = .woven w ∧
      c'.store = c.store.write task.name w.bytes := by
  cases h with
  | raise | start => exact .inl rfl
  | finish front task back outcome s' htasks _ hprocess =>
    rw [process_storage] at hprocess
    obtain ⟨-, rfl⟩ := Prod.mk.inj hprocess
    cases hresult : outcomeOf settings index task.unit with
    | woven w =>
      simp only [writeBack]
      split
      · exact .inr ⟨task, by simp [htasks], w, hresult, rfl⟩
      · exact .inl rfl
    | untouched | failed | cancelled => exact .inl rfl

/-- **A run that weaves nothing leaves the store alone.** -/
theorem store_of_idle {units : List (String × ClassFile)} {flag : Bool} {c : Snapshot}
    (hnames : (units.map Prod.fst).Nodup)
    (hidle : ∀ unit ∈ units, ∀ w, outcomeOf settings index unit.2 ≠ .woven w)
    (h : Relation.ReflTransGen (Step settings index) (.initial s flag units) c) : c.store = s := by
  induction h with
  | refl => rfl
  | @tail c c' hreach hstep ih =>
    have hunits := (consistent_of_reachable hnames hreach).units
    rcases store_of_step hstep with heq | ⟨task, htask, w, hw, -⟩
    · exact heq.trans ih
    · have hmem : (task.name, task.unit) ∈ units := hunits ▸ List.mem_map_of_mem htask
      exact absurd hw (hidle _ hmem w)

/-- So does one that reports no woven units. -/
theorem Scheduled.store_of_idle (h : Scheduled settings s report s' false)
    (hwoven : report.woven = []) : s' = s := by
  obtain ⟨_, _, hended, -, hflag⟩ := ended_of_scheduled h
  obtain ⟨_, _, _, hreach, -, -, rfl, -⟩ := h
  refine Run.store_of_idle hended.nodup (fun unit hmem w hw => ?_) hreach
  have hmem' := ((hended.mem_woven_iff hflag.symm hmem).2 (outcomeOf_eq_woven.1 hw)).1
  rw [hwoven] at hmem'
  cases hmem'

/-- A run replaces units, but neither adds nor drops any. -/
theorem Accounts.names_eq (hwrites : settings.writesOutput = true)
    (h : Accounts settings s report s') : s'.names = s.names := by
  refine Report.mergeSort_eq_of_perm
    ((List.perm_ext_iff_of_nodup s'.units.distinct s.units.distinct).2 fun name => ?_)
  change name ∈ s'.units.keys ↔ name ∈ s.units.keys
  rw [mem_keys, mem_keys]
  by_cases hwoven : ∃ w ∈ report.woven, w.name = name
  · obtain ⟨w, hw, rfl⟩ := hwoven
    have hmem : w.name ∈ report.names := by
      simp only [Report.names, List.mem_append, List.mem_map]
      exact .inl (.inl (.inl ⟨w, hw, rfl⟩))
    have hkey : w.name ∈ s.units.keys := List.mem_mergeSort.1 (h.names.subset hmem)
    rw [h.bytes hwrites w hw, mem_keys.1 hkey]
    rfl
  · rw [h.kept hwrites name fun w hw heq => hwoven ⟨w, hw, heq⟩]

/-! ### The second run -/

/-- Every unit is read by the second run as the first one left it. -/
theorem Ended.readsAs {c : Snapshot} {outcomes : List (String × Outcome)}
    (h : Ended settings s report c (load (storage false) settings s s.names) outcomes)
    (hflag : c.isCancelled = false) (hwrites : settings.writesOutput = true)
    (haccounts : Accounts settings s report s')
    (hread : ∀ w ∈ report.woven, ClassFile.read settings.versions w.bytes = .ok w.unit)
    (ht : ∀ name, t.get? name = s'.get? name) : ∀ name ∈ s.names,
      ReadsAs settings (again settings (load (storage false) settings s s.names).index) s t
        name := by
  intro name hname
  by_cases hwoven : ∃ w ∈ report.woven, w.name = name
  · obtain ⟨w, hw, rfl⟩ := hwoven
    obtain ⟨task, htask, hdone⟩ := h.mem_woven.1 hw
    obtain ⟨hmem, hweave, hsame⟩ := h.weave_of_isWoven htask hdone
    obtain ⟨hunit, scan, hscan, hown⟩ := h.covers.units _ _ hmem
    obtain ⟨scan', hscan', hname', hdeclared, -⟩ := ClassFile.scan_of_woven hscan hweave
    have hagain : again settings (load (storage false) settings s s.names).index task.unit =
        w.unit := by
      unfold again
      rw [outcomeOf_eq_woven.2 hweave]
    refine .scanned task.unit scan scan' (hsame ▸ hunit)
      (scanUnit_eq_ok.2 ⟨hscan, hown.trans hsame.symm⟩) ?_ ?_ hdeclared
    · rw [hagain]
      exact readUnit_storage.2
        ⟨w.bytes, (ht w.name).trans (haccounts.bytes hwrites w hw), hread w hw⟩
    · rw [hagain]
      exact scanUnit_eq_ok.2 ⟨hscan', hname'⟩
  · have hkept : t.get? name = s.get? name :=
      (ht name).trans (haccounts.kept hwrites name fun w hw heq => hwoven ⟨w, hw, heq⟩)
    have hsame : readUnit (storage false) settings t name =
        readUnit (storage false) settings s name := readUnit_congr hkept
    cases hunit : readUnit (storage false) settings s name with
    | error error => exact .unreadable error hunit (hsame.trans hunit)
    | ok u =>
      cases hscan : scanUnit u name with
      | error error => exact .unscannable u error hunit hscan (hsame.trans hunit)
      | ok scan =>
        have hagain : again settings (load (storage false) settings s s.names).index u = u := by
          unfold again
          split
          · rename_i w hw
            have hweave := outcomeOf_eq_woven.1 hw
            have hmem := mem_units_load.2 ⟨hname, readScanned_eq_ok.2 ⟨hunit, scan, hscan⟩⟩
            exact absurd ⟨w, (h.mem_woven_iff hflag hmem).2 hweave⟩ hwoven
          · rfl
        exact .scanned u scan scan hunit hscan (hagain.symm ▸ hsame.trans hunit)
          (hagain.symm ▸ hscan) rfl

/-- **A second run changes nothing.**  Whatever a run that is not cancelled and writes its output
has made of a store, a run over what it left ends, in every schedule: it weaves nothing and writes
nothing, finds untouched what was untouched or woven, and fails as the first one did.  This needs
that the bytes of the woven units are read as these units. -/
theorem unchanged_of_rerun (hwrites : settings.writesOutput = true)
    (h : Scheduled settings s report s' false)
    (hread : ∀ w ∈ report.woven, ClassFile.read settings.versions w.bytes = .ok w.unit)
    (ht : t.units = s'.units) :
    (∃ report' t', run (storage false) settings t = (.ok report', t') ∧
      Scheduled settings t report' t' false) ∧
    ∀ report' t', Scheduled settings t report' t' false → report'.woven = [] ∧
      report'.untouched = (report.untouched ++ report.woven.map (·.name)).mergeSort Report.nameLe ∧
        report'.failed = report.failed ∧ report'.cancelled = [] ∧ t' = t := by
  refine ⟨scheduled_run settings false t, fun report' t' h' => ?_⟩
  have haccounts := h.accounts
  obtain ⟨c, outcomes, hended, -, hflag⟩ := ended_of_scheduled h
  obtain ⟨c', outcomes', hended', -, hflag'⟩ := ended_of_scheduled h'
  -- the second run reads the same, apart from the units that were woven
  have hget : ∀ name, t.get? name = s'.get? name := fun name => by
    rw [MemoryStore.get?, MemoryStore.get?, ht]
  have hnames : t.names = s.names := by
    rw [← haccounts.names_eq hwrites, MemoryStore.names, MemoryStore.names, ht]
  rw [hnames, load_of_readsAs (hended.readsAs hflag.symm hwrites haccounts hread hget)] at hended'
  have houtcomes : outcomes' = outcomesAgain outcomes := by
    rw [hended'.outcomes_eq hflag'.symm, hended.outcomes_eq hflag.symm]
    simp only [outcomesAgain, Loaded.mapUnits, List.map_map, Function.comp_def, outcomeOf_again]
  have hcancelled : ∀ outcome ∈ outcomes, outcome.2 ≠ .cancelled := by
    rw [hended.outcomes_eq hflag.symm]
    intro outcome hmem
    obtain ⟨unit, -, rfl⟩ := List.mem_map.1 hmem
    exact outcomeOf_ne_cancelled unit.2
  have hreport := hended'.report
  have hfirst := hended.report
  rw [report_eq] at hreport hfirst
  rw [houtcomes, filterMap_woven?_again, filterMap_failed?_again,
    filterMap_cancelled?_again hcancelled] at hreport
  have hnone : report'.woven = [] := by
    rw [hreport]
    exact List.mergeSort_nil
  refine ⟨hnone, ?_, ?_, ?_, h'.store_of_idle hnone⟩
  · rw [hreport, hfirst]
    refine Report.mergeSort_eq_of_perm
      ((filterMap_untouched?_again fun _ _ => hended.name_of_mem_outcomes).trans ?_)
    exact (List.mergeSort_perm ..).symm.append ((List.mergeSort_perm ..).symm.map _)
  · rw [hreport, hfirst]
    rfl
  · rw [hreport]
    exact List.mergeSort_nil

/-- One unit is packed by the first run, and none by the second. -/
theorem unchanged_of_rerun_components :
    ({} : Settings).writesOutput = true ∧
    ∃ report s', Scheduled {} components report s' false ∧
      (∀ w ∈ report.woven, ClassFile.read {} w.bytes = .ok w.unit) ∧
      (∃ w ∈ report.woven, w.strategy = .packed) ∧
      ∀ report' t', Scheduled {} s' report' t' false → report'.woven = [] ∧
        report'.failed = report.failed ∧ t' = s' := by
  obtain ⟨report, s', hscheduled, -, w, hw, hpacked, -⟩ := scheduled_components
  obtain ⟨c, outcomes, hended, -, -⟩ := ended_of_scheduled hscheduled
  obtain ⟨⟨error, hfails⟩, hskips, w', hweave', -, -, -, hread'⟩ := weave_components
  have hread : ∀ w ∈ report.woven, ClassFile.read {} w.bytes = .ok w.unit := by
    intro v hv
    obtain ⟨task, htask, hwoven⟩ := hended.mem_woven.1 hv
    obtain ⟨hmem, hweave, -⟩ := hended.weave_of_isWoven htask hwoven
    rw [units_components] at hmem
    simp only [List.mem_cons, Prod.mk.injEq, List.not_mem_nil, or_false] at hmem
    obtain ⟨-, hunit⟩ | ⟨-, hunit⟩ | ⟨-, hunit⟩ := hmem <;> rw [hunit] at hweave
    · rw [hfails] at hweave
      cases hweave
    · rw [hskips] at hweave
      cases hweave
    · obtain rfl : w' = v := Option.some.inj (Except.ok.inj (hweave'.symm.trans hweave))
      exact hread'
  refine ⟨rfl, report, s', hscheduled, hread, ⟨w, hw, hpacked⟩, ?_⟩
  intro report' t' h'
  obtain ⟨hnone, -, hfailed, -, hstore⟩ :=
    (unchanged_of_rerun rfl hscheduled hread rfl).2 report' t' h'
  exact ⟨hnone, hfailed, hstore⟩

end Run

end ClassWeave
