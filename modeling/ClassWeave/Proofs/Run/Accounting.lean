import ClassWeave.Proofs.Run.Loading
import ClassWeave.Proofs.Run.Schedule
import ClassWeave.Proofs.Text.Order
import ClassWeave.Proofs.Weaving.Scan
import ClassWeave.Proofs.Weaving.Transform

/-!
# What a run accounts for

In every schedule of a run each unit ends in one list of the report, and exactly the woven units are
written.  Without cancellation the schedule makes no difference.

* `Report.names`, `Run.Ended.names` : the names in all lists of a report, which are those of all
  units.
* `Run.Accounts` : what a report says about the units before and after the run.
* `Run.Scheduled.accounts`, `Run.Scheduled.report_eq` : this holds in every schedule, and without
  cancellation all schedules end with the same report.
* `Run.accounts_of_scheduled` : the two together, and that there are schedules.
-/

namespace ClassWeave

/-! ### Reports -/

namespace Report

variable (r : Report)

/-- The names in all lists of a report. -/
def names : List String :=
  r.woven.map (·.name) ++ r.untouched ++ r.failed.map (·.name) ++ r.cancelled

/-- Every list of a report is in the order of the names. -/
structure IsSorted : Prop where
  /-- The woven units. -/
  woven : r.woven.Pairwise fun a b => nameLe a.name b.name
  /-- The units that there was nothing to do for. -/
  untouched : r.untouched.Pairwise fun a b => nameLe a b
  /-- The units that failed. -/
  failed : r.failed.Pairwise fun a b => nameLe a.name b.name
  /-- The units that a cancelled run did not come to. -/
  cancelled : r.cancelled.Pairwise fun a b => nameLe a b

theorem isSorted_sorted : r.sorted.IsSorted where
  woven := Text.pairwise_mergeSort Woven.name r.woven
  untouched := Text.pairwise_mergeSort id r.untouched
  failed := Text.pairwise_mergeSort UnitFailure.name r.failed
  cancelled := Text.pairwise_mergeSort id r.cancelled

theorem names_sorted : r.sorted.names.Perm r.names :=
  ((((List.mergeSort_perm ..).map _).append (List.mergeSort_perm ..)).append
    ((List.mergeSort_perm ..).map _)).append (List.mergeSort_perm ..)

end Report

namespace Run

open MemoryStore (storage)

variable {r : Report} {outcomes : List (String × Outcome)} {loaded : Loaded} {w : Woven}

theorem names_record {name : String} {outcome : Outcome}
    (h : ∀ w, outcome = .woven w → w.name = name) :
    (record r (name, outcome)).names.Perm (r.names ++ [name]) := by
  refine List.perm_iff_count.2 fun other => ?_
  cases outcome with
  | woven w =>
    have hname := h w rfl
    simp only [record, Report.names, List.map_append, List.map_cons, List.map_nil,
      List.count_append, hname]
    omega
  | untouched | failed | cancelled =>
    simp only [record, Report.names, List.map_append, List.map_cons, List.map_nil,
      List.count_append]
    omega

theorem names_foldl_record (h : ∀ name w, (name, .woven w) ∈ outcomes → w.name = name) :
    (outcomes.foldl record r).names.Perm (r.names ++ outcomes.map Prod.fst) := by
  induction outcomes generalizing r with
  | nil => simp
  | cons outcome outcomes ih =>
    obtain ⟨name, outcome⟩ := outcome
    have hfirst : (record r (name, outcome)).names.Perm (r.names ++ [name]) :=
      names_record fun w hw => h name w (by simp [hw])
    refine (ih fun name w hmem => h name w (List.mem_cons_of_mem _ hmem)).trans ?_
    rw [List.map_cons, ← List.singleton_append, ← List.append_assoc]
    exact hfirst.append_right _

/-- A unit that was woven. -/
def woven? : String × Outcome → Option Woven
  | (_, .woven w) => some w
  | _ => none

/-- A unit that there was nothing to do for. -/
def untouched? : String × Outcome → Option String
  | (name, .untouched) => some name
  | _ => none

/-- A unit that failed. -/
def failed? : String × Outcome → Option UnitFailure
  | (name, .failed error) => some { name, error }
  | _ => none

/-- A unit that a cancelled run did not come to. -/
def cancelled? : String × Outcome → Option String
  | (name, .cancelled) => some name
  | _ => none

/-- Every outcome goes to one of the lists. -/
theorem foldl_record : outcomes.foldl record r =
    { woven := r.woven ++ outcomes.filterMap woven?
      untouched := r.untouched ++ outcomes.filterMap untouched?
      failed := r.failed ++ outcomes.filterMap failed?
      cancelled := r.cancelled ++ outcomes.filterMap cancelled? } := by
  induction outcomes generalizing r with
  | nil => simp
  | cons outcome outcomes ih =>
    obtain ⟨name, outcome⟩ := outcome
    rw [List.foldl_cons, ih]
    cases outcome <;>
      simp [record, List.filterMap_cons, woven?, untouched?, failed?, cancelled?]

theorem woven?_eq_some {outcome : String × Outcome} :
    woven? outcome = some w ↔ outcome.2 = .woven w := by
  obtain ⟨name, outcome⟩ := outcome
  cases outcome <;> simp [woven?]

theorem untouched?_eq_some {outcome : String × Outcome} {name : String} :
    untouched? outcome = some name ↔ outcome = (name, .untouched) := by
  obtain ⟨name, outcome⟩ := outcome
  cases outcome <;> simp [untouched?]

theorem failed?_eq_some {outcome : String × Outcome} {name : String} {error : Error} :
    failed? outcome = some { name, error } ↔ outcome = (name, .failed error) := by
  obtain ⟨name, outcome⟩ := outcome
  cases outcome <;> simp [failed?]

theorem cancelled?_eq_some {outcome : String × Outcome} {name : String} :
    cancelled? outcome = some name ↔ outcome = (name, .cancelled) := by
  obtain ⟨name, outcome⟩ := outcome
  cases outcome <;> simp [cancelled?]

theorem mem_woven_report :
    w ∈ (loaded.report outcomes).woven ↔ ∃ outcome ∈ outcomes, outcome.2 = .woven w := by
  rw [Loaded.report, foldl_record]
  simp [Report.sorted, List.mem_filterMap, woven?_eq_some]

theorem mem_untouched_report {name : String} :
    name ∈ (loaded.report outcomes).untouched ↔ (name, .untouched) ∈ outcomes := by
  rw [Loaded.report, foldl_record]
  simp [Report.sorted, List.mem_filterMap, untouched?_eq_some]

theorem mem_failed_report {name : String} {error : Error} :
    { name, error } ∈ (loaded.report outcomes).failed ↔
      { name, error } ∈ loaded.failed ∨ (name, .failed error) ∈ outcomes := by
  rw [Loaded.report, foldl_record]
  simp [Report.sorted, List.mem_filterMap, failed?_eq_some]

theorem mem_cancelled_report {name : String} :
    name ∈ (loaded.report outcomes).cancelled ↔ (name, .cancelled) ∈ outcomes := by
  rw [Loaded.report, foldl_record]
  simp [Report.sorted, List.mem_filterMap, cancelled?_eq_some]

/-! ### Schedules that have ended -/

variable {settings : Settings} {index : TypeIndex} {s s' : MemoryStore} {report : Report}
  {isCancelled : Bool}

theorem outcomeOf_eq_woven {u : ClassFile} :
    outcomeOf settings index u = .woven w ↔ u.weave index settings = .ok (some w) := by
  unfold outcomeOf
  split <;> simp [*]

/-- A woven unit has the name that scanning found. -/
theorem name_of_weave {u : ClassFile} {scan : Scan} (hscan : u.scan = .ok scan)
    (h : u.weave index settings = .ok (some w)) : w.name = scan.name := by
  obtain ⟨_, -, -, -, hname, -⟩ := ClassFile.weave_eq_ok h
  obtain ⟨name, _, _, _, _, _, _, hname', -, -, -, -, -, -, -, rfl⟩ :=
    ClassFile.scan_eq_ok.1 hscan
  exact Except.ok.inj (hname.symm.trans hname')

/-- Scanning finds that a unit declares a strategy which is not applied only when the unit has been
woven before. -/
theorem effective_of_scan {u : ClassFile} {scan : Scan} (h : u.scan = .ok scan) :
    scan.effective = if scan.woven?.isSome then .none else scan.declared := by
  obtain ⟨_, _, _, _, _, _, _, -, -, -, -, -, -, -, -, rfl⟩ := ClassFile.scan_eq_ok.1 h
  rfl

/-- The strategy that was applied is the one that the unit declares. -/
theorem strategy_of_weave {u : ClassFile} {scan : Scan} (hscan : u.scan = .ok scan)
    (h : u.weave index settings = .ok (some w)) : w.strategy = scan.declared := by
  obtain ⟨scan', hscan', heffective, hne, -⟩ := ClassFile.weave_eq_ok h
  obtain rfl := Except.ok.inj (hscan.symm.trans hscan')
  rw [effective_of_scan hscan] at heffective
  split_ifs at heffective
  · exact absurd heffective.symm hne
  · exact heffective.symm

/-- The names of units in memory are distinct. -/
theorem nodup_names (s : MemoryStore) : s.names.Nodup :=
  (List.mergeSort_perm ..).nodup_iff.2 s.units.distinct

/-- A schedule that has ended: everything was read, the invariant holds, and the report tells the
outcomes. -/
structure Ended (settings : Settings) (s : MemoryStore) (report : Report) (c : Snapshot)
    (loaded : Loaded) (outcomes : List (String × Outcome)) : Prop where
  /-- Everything was read. -/
  covers : loaded.Covers (storage false) settings s s.names
  /-- The names of the units that can be worked on are distinct. -/
  nodup : (loaded.units.map Prod.fst).Nodup
  /-- The invariant holds at the end. -/
  consistent : Consistent settings loaded.index loaded.units s c
  /-- All work has ended. -/
  ends : c.EndsWith outcomes
  /-- The report tells what became of the units. -/
  report : report = loaded.report outcomes

theorem ended_of_scheduled (h : Scheduled settings s report s' isCancelled) : ∃ c outcomes,
      Ended settings s report c (load (storage false) settings s s.names) outcomes ∧
        s' = c.store ∧ isCancelled = c.isCancelled := by
  obtain ⟨early, c, outcomes, hreach, hends, hreport, hstore, hflag⟩ := h
  have hcovers := covers_load (storage false) settings s s.names
  have hnames : ((load (storage false) settings s s.names).units.map Prod.fst).Nodup :=
    (List.nodup_append.1 (hcovers.names.nodup_iff.2 (nodup_names s))).1
  exact ⟨c, outcomes, ⟨hcovers, hnames, consistent_of_reachable hnames hreach, hends, hreport⟩,
    hstore, hflag⟩

namespace Ended

variable {c : Snapshot}

/-- A unit that was woven is one of those that could be worked on, under its own name. -/
theorem weave_of_isWoven (h : Ended settings s report c loaded outcomes) {task : Task}
    (htask : task ∈ c.tasks) (hw : task.IsWoven w) : (task.name, task.unit) ∈ loaded.units ∧
      task.unit.weave loaded.index settings = .ok (some w) ∧ w.name = task.name := by
  have hmem : (task.name, task.unit) ∈ loaded.units := by
    rw [← h.consistent.units]
    exact List.mem_map.2 ⟨task, htask, rfl⟩
  have hweave : task.unit.weave loaded.index settings = .ok (some w) := by
    rcases h.consistent.outcomes task htask _ hw with heq | ⟨heq, -⟩
    · exact outcomeOf_eq_woven.1 heq.symm
    · cases heq
  obtain ⟨-, scan, hscan, hname⟩ := h.covers.units _ _ hmem
  exact ⟨hmem, hweave, (name_of_weave hscan hweave).trans hname⟩

/-- The report tells the woven units. -/
theorem mem_woven (h : Ended settings s report c loaded outcomes) :
    w ∈ report.woven ↔ ∃ task ∈ c.tasks, task.IsWoven w := by
  rw [h.report, mem_woven_report]
  constructor
  · rintro ⟨outcome, hmem, hw⟩
    obtain ⟨task, htask, -, hdone⟩ := exists_of_mem_right h.ends hmem
    exact ⟨task, htask, hdone.trans (congrArg Progress.done hw)⟩
  · rintro ⟨task, htask, hw⟩
    obtain ⟨outcome, hmem, -, hdone⟩ := exists_of_mem_left h.ends htask
    exact ⟨outcome, hmem, Progress.done.inj (hdone.symm.trans hw)⟩

theorem name_of_mem_outcomes (h : Ended settings s report c loaded outcomes) {name : String}
    (hw : (name, .woven w) ∈ outcomes) : w.name = name := by
  obtain ⟨task, htask, rfl, hdone⟩ := exists_of_mem_right h.ends hw
  exact (h.weave_of_isWoven htask hdone).2.2

theorem names_outcomes (h : Ended settings s report c loaded outcomes) :
    outcomes.map Prod.fst = loaded.units.map Prod.fst := by
  rw [← h.consistent.names, eq_comm, ← List.forall₂_eq_eq_eq, List.forall₂_map_left_iff,
    List.forall₂_map_right_iff]
  exact h.ends.imp fun _ _ heq => heq.1

/-- The report tells the name of every unit once. -/
theorem names (h : Ended settings s report c loaded outcomes) : report.names.Perm s.names := by
  rw [h.report, Loaded.report]
  refine (Report.names_sorted _).trans
    ((names_foldl_record fun _ _ => h.name_of_mem_outcomes).trans ?_)
  rw [h.names_outcomes]
  refine (List.perm_append_comm.trans ?_).trans h.covers.names
  simp [Report.names]

/-- Without cancellation, what became of the units does not depend on the schedule. -/
theorem outcomes_eq (h : Ended settings s report c loaded outcomes)
    (hflag : c.isCancelled = false) :
    outcomes = loaded.units.map fun unit => (unit.1, outcomeOf settings loaded.index unit.2) := by
  have htasks : c.tasks.map (fun task => (task.name, outcomeOf settings loaded.index task.unit)) =
      outcomes := by
    rw [← List.forall₂_eq_eq_eq, List.forall₂_map_left_iff]
    refine List.forall₂_iff_zip.2 ⟨h.ends.length_eq, fun {task outcome} hzip => ?_⟩
    obtain ⟨hname, hdone⟩ := List.forall₂_zip h.ends hzip
    rcases h.consistent.outcomes task (List.of_mem_zip hzip).1 _ hdone with heq | ⟨-, htrue⟩
    · exact Prod.ext hname heq.symm
    · exact absurd (hflag.symm.trans htrue) (by decide)
  rw [← htasks, ← h.consistent.units, List.map_map]
  rfl

/-- Without cancellation, work on every unit ends with what becomes of it. -/
theorem mem_outcomes (h : Ended settings s report c loaded outcomes) (hflag : c.isCancelled = false)
    {name : String} {u : ClassFile} (hmem : (name, u) ∈ loaded.units) :
    (name, outcomeOf settings loaded.index u) ∈ outcomes := by
  rw [h.outcomes_eq hflag]
  exact List.mem_map_of_mem (f := fun unit : String × ClassFile =>
    (unit.1, outcomeOf settings loaded.index unit.2)) hmem

/-- Without cancellation, a unit that can be worked on is among the woven ones just when weaving
succeeds. -/
theorem mem_woven_iff (h : Ended settings s report c loaded outcomes)
    (hflag : c.isCancelled = false) {name : String} {u : ClassFile}
    (hmem : (name, u) ∈ loaded.units) :
    w ∈ report.woven ∧ w.name = name ↔ u.weave loaded.index settings = .ok (some w) := by
  constructor
  · rintro ⟨hw, rfl⟩
    obtain ⟨task, htask, hwoven⟩ := h.mem_woven.1 hw
    obtain ⟨hunit, hweave, hname⟩ := h.weave_of_isWoven htask hwoven
    have hsame := List.inj_on_of_nodup_map h.nodup hunit hmem hname.symm
    obtain rfl : task.unit = u := congrArg Prod.snd hsame
    exact hweave
  · intro hweave
    obtain ⟨-, scan, hscan, hname⟩ := h.covers.units name u hmem
    refine ⟨?_, (name_of_weave hscan hweave).trans hname⟩
    rw [h.report]
    exact mem_woven_report.2 ⟨_, h.mem_outcomes hflag hmem, outcomeOf_eq_woven.2 hweave⟩

end Ended

/-! ### Accounts -/

/-- What a report says about the units before and after the run. -/
structure Accounts (settings : Settings) (s : MemoryStore) (report : Report) (s' : MemoryStore) :
    Prop where
  /-- The lists of the report hold the names of the units. -/
  names : report.names.Perm s.names
  /-- No name stands in two of them, or twice in one. -/
  nodup : report.names.Nodup
  /-- Every list is in the order of the names. -/
  sorted : report.IsSorted
  /-- The woven units are marked as written, and no others. -/
  written : settings.writesOutput = true → ∀ name,
    s'.wasWritten name = true ↔ s.wasWritten name = true ∨ ∃ w ∈ report.woven, w.name = name
  /-- The woven units are replaced. -/
  bytes : settings.writesOutput = true → ∀ w ∈ report.woven, s'.get? w.name = some w.bytes
  /-- All others stay. -/
  kept : settings.writesOutput = true → ∀ name, (∀ w ∈ report.woven, w.name ≠ name) →
    s'.get? name = s.get? name
  /-- Nothing changes unless output is to be written. -/
  dry : settings.writesOutput = false → s' = s

/-- **A run accounts for every unit**, in whatever schedule. -/
theorem Scheduled.accounts (h : Scheduled settings s report s' isCancelled) :
    Accounts settings s report s' := by
  obtain ⟨c, outcomes, hended, rfl, -⟩ := ended_of_scheduled h
  have hstore := hended.consistent.store
  have hnames := hended.names
  -- a unit is woven just when the task of its name has ended so
  have htask : ∀ w ∈ report.woven, ∃ task ∈ c.tasks, task.name = w.name ∧ task.IsWoven w := by
    intro w hw
    obtain ⟨task, htask, hw⟩ := hended.mem_woven.1 hw
    exact ⟨task, htask, (hended.weave_of_isWoven htask hw).2.2.symm, hw⟩
  have hnone : ∀ name, (∀ w ∈ report.woven, w.name ≠ name) →
      ∀ task ∈ c.tasks, task.name = name → ∀ w, ¬ task.IsWoven w := by
    rintro _ hname task htask rfl w hw
    exact hname w (hended.mem_woven.2 ⟨task, htask, hw⟩) (hended.weave_of_isWoven htask hw).2.2
  refine ⟨hnames, hnames.nodup_iff.2 (nodup_names s), hended.report ▸ Report.isSorted_sorted _,
    fun hwrites name => ?_, fun hwrites w hw => ?_, fun hwrites name hname => ?_, hstore.dry⟩
  · by_cases hwoven : ∃ w ∈ report.woven, w.name = name
    · obtain ⟨w, hw, rfl⟩ := hwoven
      obtain ⟨task, htask, hname, hw'⟩ := htask w hw
      simp only [← hname, (hstore.woven hwrites task htask w hw').2, true_iff]
      exact .inr ⟨w, hw, hname.symm⟩
    · have hothers : ∀ w ∈ report.woven, w.name ≠ name := fun w hw heq => hwoven ⟨w, hw, heq⟩
      rw [(hstore.others hwrites name (hnone name hothers)).2]
      simp [hwoven]
  · obtain ⟨task, htask, hname, hw'⟩ := htask w hw
    rw [← hname]
    exact (hstore.woven hwrites task htask w hw').1
  · exact (hstore.others hwrites name (hnone name hname)).1

/-- Whether output is written makes no difference to what becomes of a unit. -/
theorem outcomeOf_writesOutput (settings : Settings) (writesOutput : Bool) (index : TypeIndex)
    (u : ClassFile) :
    outcomeOf { settings with writesOutput } index u = outcomeOf settings index u :=
  rfl

/-- Nor does it to reading. -/
theorem load_writesOutput {σ : Type} (storage : Storage σ) (settings : Settings)
    (writesOutput : Bool) (s : σ) (names : List String) :
    load storage { settings with writesOutput } s names = load storage settings s names :=
  rfl

/-- **Without cancellation the schedule makes no difference** to the report, and neither does
whether output is written. -/
theorem Scheduled.report_eq {writesOutput : Bool} {report' : Report}
    {s₁ s₂ : MemoryStore} (h : Scheduled settings s report s₁ false)
    (h' : Scheduled { settings with writesOutput } s report' s₂ false) : report = report' := by
  obtain ⟨c, outcomes, hended, -, hflag⟩ := ended_of_scheduled h
  obtain ⟨c', outcomes', hended', -, hflag'⟩ := ended_of_scheduled h'
  rw [hended.report, hended'.report, hended.outcomes_eq hflag.symm, hended'.outcomes_eq hflag'.symm]
  simp only [outcomeOf_writesOutput, load_writesOutput]

/-- Runs with the same report leave the same units. -/
theorem Accounts.contents_eq {s₁ s₂ : MemoryStore} (h : Accounts settings s report s₁)
    (h' : Accounts settings s report s₂) (name : String) :
    s₁.get? name = s₂.get? name ∧ s₁.wasWritten name = s₂.wasWritten name := by
  cases hwrites : settings.writesOutput with
  | false =>
    rw [h.dry hwrites, h'.dry hwrites]
    exact ⟨rfl, rfl⟩
  | true =>
    refine ⟨?_, ?_⟩
    · by_cases hwoven : ∃ w ∈ report.woven, w.name = name
      · obtain ⟨w, hw, rfl⟩ := hwoven
        rw [h.bytes hwrites w hw, h'.bytes hwrites w hw]
      · have hothers : ∀ w ∈ report.woven, w.name ≠ name := fun w hw heq => hwoven ⟨w, hw, heq⟩
        rw [h.kept hwrites name hothers, h'.kept hwrites name hothers]
    · rw [Bool.eq_iff_iff, h.written hwrites name, h'.written hwrites name]

/-- **Runs in any schedule.**  There are schedules: working on the units one after the other is one
of them.  In every schedule, whenever the run is cancelled, the report accounts for every unit, and
just the woven ones are written.  Without cancellation all schedules end with the same report and
the same units; a run that writes no output ends with that report as well. -/
theorem accounts_of_scheduled (settings : Settings) (s : MemoryStore) :
    (∀ isCancelled, ∃ report s', run (storage isCancelled) settings s = (.ok report, s') ∧
      Scheduled settings s report s' isCancelled) ∧
    (∀ report s' isCancelled, Scheduled settings s report s' isCancelled →
      Accounts settings s report s') ∧
    ∀ writesOutput report₁ s₁ report₂ s₂, Scheduled settings s report₁ s₁ false →
      Scheduled { settings with writesOutput } s report₂ s₂ false → report₁ = report₂ ∧
        (settings.writesOutput = writesOutput → ∀ name,
          s₁.get? name = s₂.get? name ∧ s₁.wasWritten name = s₂.wasWritten name) := by
  refine ⟨fun isCancelled => scheduled_run settings isCancelled s,
    fun report s' isCancelled h => h.accounts, ?_⟩
  intro writesOutput report₁ s₁ report₂ s₂ h₁ h₂
  obtain rfl := h₁.report_eq h₂
  refine ⟨rfl, fun hsame name => ?_⟩
  subst hsame
  exact h₁.accounts.contents_eq h₂.accounts name

/-! ### Three units that end differently -/

/-- A unit with annotations and fields as told by the slots of their names and types. -/
def component (name : String) (annotations : List UInt16) (fields : List (UInt16 × UInt16)) :
    ClassFile :=
  { minor := 0, major := 52,
    pool := ⟨#[none, some (.utf8 name), some (.classInfo 1), some (.utf8 "java/lang/Object"),
      some (.classInfo 3), some (.utf8 "RuntimeInvisibleAnnotations"),
      some (.utf8 "Lcom/artemis/annotations/PackedWeaver;"),
      some (.utf8 "Lcom/artemis/annotations/internal/Transmuted;"), some (.utf8 "x"),
      some (.utf8 "[I"), some (.utf8 "LA;"), some (.utf8 "y"), some (.utf8 "LB;")]⟩,
    access := 0x21, thisClass := 2, superClass := 4, interfaces := [],
    fields := fields.map fun (name, descriptor) =>
      { access := 0, name, descriptor, attributes := [] },
    methods := [],
    attributes := [.annotations 5 (annotations.map fun type => { type, elements := [] })] }

/-- A unit with an array, which cannot be packed. -/
def withArray : ClassFile := component "A" [6] [(8, 9)]

/-- A unit that is marked as woven, though nothing was done to it. -/
def markedOnly : ClassFile := component "B" [6, 7] []

/-- A unit with components of these types. -/
def withComponents : ClassFile := component "C" [6] [(8, 10), (11, 12)]

/-- All three, which declare to be packed. -/
def components : MemoryStore :=
  { units :=
      { entries := [("A", withArray.write.toOption.getD []),
          ("B", markedOnly.write.toOption.getD []),
          ("C", withComponents.write.toOption.getD [])]
        distinct := (by decide : ["A", "B", "C"].Nodup) } }

theorem read_components :
    (∃ b, components.get? "A" = some b ∧ ClassFile.read {} b = .ok withArray) ∧
      ∃ b, components.get? "B" = some b ∧ ClassFile.read {} b = .ok markedOnly :=
  ⟨⟨withArray.write.toOption.getD [], rfl, by decide +kernel⟩,
    ⟨markedOnly.write.toOption.getD [], rfl, by decide +kernel⟩⟩

theorem names_components : components.names = ["A", "B", "C"] :=
  List.mergeSort_of_pairwise (by decide : ["A", "B", "C"].Pairwise fun a b => !(b < a))

theorem units_components : (load (storage false) {} components components.names).units =
    [("A", withArray), ("B", markedOnly), ("C", withComponents)] := by
  rw [names_components]
  decide +kernel

theorem index_components : (load (storage false) {} components components.names).index =
    ((FiniteMap.empty.insert "A" .packed).insert "B" .packed).insert "C" .packed := by
  rw [names_components]
  decide +kernel

/-- Only the third unit is woven. -/
theorem weave_components :
    let index := (load (storage false) {} components components.names).index
    (∃ error, withArray.weave index {} = .error error) ∧ markedOnly.weave index {} = .ok none ∧
      ∃ w, withComponents.weave index {} = .ok (some w) ∧ w.name = "C" ∧ w.strategy = .packed ∧
        w.layout? = some ⟨8, [⟨"x", .object "A", 0, 4⟩, ⟨"y", .object "B", 4, 4⟩]⟩ ∧
          ClassFile.read {} w.bytes = .ok w.unit := by
  intro index
  have hindex : index = _ := index_components
  have hfails : (withArray.weave index {}).toOption = none := by
    rw [hindex]
    decide +kernel
  obtain ⟨b, hread⟩ : ∃ b, ClassFile.read {} b = .ok withComponents :=
    ClassFile.exists_read (by decide +kernel)
  have hweave : Option.map (fun w => (w.name, w.strategy, w.layout?,
      decide w.unit.WithinLimits)) <$> withComponents.weave index {} =
        .ok (some ("C", .packed, some ⟨8, [⟨"x", .object "A", 0, 4⟩, ⟨"y", .object "B", 4, 4⟩]⟩,
          true)) := by
    rw [hindex]
    decide +kernel
  refine ⟨?_, ?_, ?_⟩
  · cases hresult : withArray.weave index {} with
    | error error => exact ⟨error, rfl⟩
    | ok =>
      rw [hresult] at hfails
      cases hfails
  · rw [hindex]
    decide +kernel
  · obtain ⟨w, hweave, hw⟩ := except_map_some_eq_ok.1 hweave
    obtain ⟨hname, hw⟩ := Prod.mk.inj hw
    obtain ⟨hstrategy, hw⟩ := Prod.mk.inj hw
    obtain ⟨hlayout, hlimits⟩ := Prod.mk.inj hw
    obtain ⟨_, -, -, -, -, -, -, -, hbytes⟩ := ClassFile.weave_eq_ok hweave
    exact ⟨w, hweave, hname, hstrategy, hlayout,
      ((ClassFile.sound_weave hread hweave).read_iff hbytes).2 (of_decide_eq_true hlimits)⟩

/-- A run over three units that is cancelled while the first and the third are worked on at the same
time, before it comes to the second. -/
theorem scheduled_overlapped {a b c : String × ClassFile}
    (hunits : (load (storage false) settings s s.names).units = [a, b, c]) :
    let loaded := load (storage false) settings s s.names
    ∃ report s', Scheduled settings s report s' true ∧
      report = loaded.report [(a.1, outcomeOf settings loaded.index a.2), (b.1, .cancelled),
        (c.1, outcomeOf settings loaded.index c.2)] := by
  intro loaded
  have hbegin (s : MemoryStore) (isCancelled : Bool) (front back : List Task)
      (u : String × ClassFile) : Step settings loaded.index
        ⟨s, isCancelled, front ++ .ofUnit u :: back⟩
        ⟨s, isCancelled, front ++
          ⟨u.1, u.2, if isCancelled then .done .cancelled else .started⟩ :: back⟩ :=
    .start ⟨s, isCancelled, front ++ .ofUnit u :: back⟩ front (.ofUnit u) back rfl rfl
  have hend (s : MemoryStore) (isCancelled : Bool) (front back : List Task)
      (u : String × ClassFile) : Step settings loaded.index
        ⟨s, isCancelled, front ++ ⟨u.1, u.2, .started⟩ :: back⟩
        ⟨writeBack settings u.1 (outcomeOf settings loaded.index u.2) s, isCancelled,
          front ++ ⟨u.1, u.2, .done (outcomeOf settings loaded.index u.2)⟩ :: back⟩ :=
    .finish ⟨s, isCancelled, front ++ ⟨u.1, u.2, .started⟩ :: back⟩ front _ back _ _ rfl rfl
      (process_storage ..)
  let first := outcomeOf settings loaded.index a.2
  let last := outcomeOf settings loaded.index c.2
  refine ⟨_, _, ⟨false,
    ⟨writeBack settings a.1 first (writeBack settings c.1 last s), true,
      [⟨a.1, a.2, .done first⟩, ⟨b.1, b.2, .done .cancelled⟩, ⟨c.1, c.2, .done last⟩]⟩,
    _, ?_, ?_, rfl, rfl, rfl⟩, rfl⟩
  · have hinitial : Snapshot.initial s false loaded.units =
        ⟨s, false, [.ofUnit a, .ofUnit b, .ofUnit c]⟩ := by
      rw [hunits]
      rfl
    rw [hinitial]
    exact .head (hbegin s false [.ofUnit a, .ofUnit b] [] c) <|
      .head (hbegin s false [] [.ofUnit b, ⟨c.1, c.2, .started⟩] a) <|
      .head (.raise _) <|
      .head (hend s true [⟨a.1, a.2, .started⟩, .ofUnit b] [] c) <|
      .head (hend _ true [] [.ofUnit b, ⟨c.1, c.2, .done last⟩] a) <|
      .single (hbegin _ true [⟨a.1, a.2, .done first⟩] [⟨c.1, c.2, .done last⟩] b)
  · exact .cons ⟨rfl, rfl⟩ (.cons ⟨rfl, rfl⟩ (.cons ⟨rfl, rfl⟩ .nil))

/-- The third unit is woven, the first one fails, and the second one is left untouched or, when the
run is cancelled while the others are worked on, is not come to. -/
theorem accounts_of_scheduled_components :
    (∃ report s', run (storage false) {} components = (.ok report, s') ∧
      Accounts {} components report s' ∧ (∃ error, { name := "A", error } ∈ report.failed) ∧
        "B" ∈ report.untouched ∧ ∃ w ∈ report.woven, s'.get? "C" = some w.bytes) ∧
    ∃ report s', Scheduled {} components report s' true ∧
      Accounts {} components report s' ∧ (∃ error, { name := "A", error } ∈ report.failed) ∧
        "B" ∈ report.cancelled ∧ ∃ w ∈ report.woven, s'.get? "C" = some w.bytes := by
  obtain ⟨hruns, haccounts, -⟩ := accounts_of_scheduled {} components
  obtain ⟨⟨error, hfails⟩, hskips, w, hweave, hname, -⟩ := weave_components
  have hfirst : outcomeOf {} (load (storage false) {} components components.names).index
      withArray = .failed error := by
    rw [outcomeOf, hfails]
  have hsecond : outcomeOf {} (load (storage false) {} components components.names).index
      markedOnly = .untouched := by
    rw [outcomeOf, hskips]
  have hthird := outcomeOf_eq_woven.2 hweave
  refine ⟨?_, ?_⟩
  · obtain ⟨report, s', hrun, hscheduled⟩ := hruns false
    have hends := haccounts report s' false hscheduled
    obtain ⟨c, outcomes, hended, -, hflag⟩ := ended_of_scheduled hscheduled
    have houtcomes := hended.outcomes_eq hflag.symm
    simp only [units_components, List.map_cons, List.map_nil, hfirst, hsecond, hthird] at houtcomes
    have hreport := hended.report
    rw [houtcomes] at hreport
    have hwoven : w ∈ report.woven :=
      hreport ▸ mem_woven_report.2 ⟨("C", .woven w), by simp, rfl⟩
    refine ⟨report, s', hrun, hends, ⟨error, ?_⟩, ?_, w, hwoven, hname ▸ hends.bytes rfl w hwoven⟩
    · exact hreport ▸ mem_failed_report.2 (.inr (by simp))
    · exact hreport ▸ mem_untouched_report.2 (by simp)
  · obtain ⟨report, s', hscheduled, hreport⟩ := scheduled_overlapped units_components
    have hends := haccounts report s' true hscheduled
    rw [hfirst, hthird] at hreport
    have hwoven : w ∈ report.woven :=
      hreport ▸ mem_woven_report.2 ⟨("C", .woven w), by simp, rfl⟩
    refine ⟨report, s', hscheduled, hends, ⟨error, ?_⟩, ?_, w, hwoven,
      hname ▸ hends.bytes rfl w hwoven⟩
    · exact hreport ▸ mem_failed_report.2 (.inr (by simp))
    · exact hreport ▸ mem_cancelled_report.2 (by simp)

end Run

end ClassWeave
