import ClassWeave.Run.Basic
import Mathlib.Data.List.Nodup
import Mathlib.Logic.Relation

/-!
# Units worked on at the same time

The units of a run are worked on in any order, and several at a time.  The work on one unit looks at
the flag that cancels the run when it begins, and touches the store when it ends; whatever happens
to other units in between, and whoever raises the flag, is left open.

* `Run.Snapshot`, `Run.Step` : a run at some point, and what can happen next.
* `Run.Scheduled` : a run over units in memory, in any schedule.
* `Run.Consistent` : what holds at every point of every schedule; `Run.Consistent.step`,
  `Run.consistent_of_reachable`.
* `Run.scheduled_run` : working on the units one after the other is one of the schedules.
-/

namespace ClassWeave

namespace MemoryStore

variable (s : MemoryStore) (name other : String) (data : Bytes)

theorem get?_write : (s.write name data).get? other =
    if other = name then some data else s.get? other :=
  FiniteMap.get?_insert s.units name other data

theorem wasWritten_write : (s.write name data).wasWritten other =
    (other == name || s.wasWritten other) := by
  unfold wasWritten write
  by_cases hwritten : s.wasWritten name
  · have hmem : name ∈ s.written := by simpa [wasWritten] using hwritten
    simp only [hwritten, if_true]
    by_cases heq : other = name
    · subst heq
      simpa using hmem
    · simp [heq]
  · simp only [hwritten]
    rw [if_neg (by simp), List.contains_cons]

end MemoryStore

namespace Run

open MemoryStore (storage)

/-! ### Schedules -/

/-- How far the work on a unit has come. -/
inductive Progress where
  | waiting
  | started
  | done (outcome : Outcome)
  deriving DecidableEq, Repr

/-- The work on a unit. -/
structure Task where
  /-- The name under which the unit is stored. -/
  name : String
  /-- The unit. -/
  unit : ClassFile
  /-- How far it has come. -/
  progress : Progress := .waiting
  deriving DecidableEq, Repr

/-- Work that has not begun. -/
def Task.ofUnit (unit : String × ClassFile) : Task := { name := unit.1, unit := unit.2 }

/-- A run while its units are worked on. -/
structure Snapshot where
  /-- The units in memory. -/
  store : MemoryStore
  /-- The run was asked to stop. -/
  isCancelled : Bool
  /-- The work on all units. -/
  tasks : List Task
  deriving DecidableEq, Repr

/-- No work has begun. -/
def Snapshot.initial (s : MemoryStore) (isCancelled : Bool) (units : List (String × ClassFile)) :
    Snapshot :=
  { store := s, isCancelled, tasks := units.map .ofUnit }

/-- All work has ended, with these outcomes. -/
def Snapshot.EndsWith (c : Snapshot) (outcomes : List (String × Outcome)) : Prop :=
  List.Forall₂ (fun task outcome => task.name = outcome.1 ∧ task.progress = .done outcome.2)
    c.tasks outcomes

variable (settings : Settings) (index : TypeIndex)

/-- What can happen next. -/
inductive Step : Snapshot → Snapshot → Prop
  /-- The run is asked to stop. -/
  | raise (c : Snapshot) : Step c { c with isCancelled := true }
  /-- The work on a unit begins, unless the run was asked to stop. -/
  | start (c : Snapshot) (front : List Task) (task : Task) (back : List Task) :
      c.tasks = front ++ task :: back → task.progress = .waiting →
        Step c { c with tasks := front ++
          { task with progress := if c.isCancelled then .done .cancelled else .started } :: back }
  /-- The work on a unit ends, and the unit is written if it was woven. -/
  | finish (c : Snapshot) (front : List Task) (task : Task) (back : List Task)
      (outcome : Outcome) (s : MemoryStore) :
      c.tasks = front ++ task :: back → task.progress = .started →
        process (storage c.isCancelled) settings index task.name task.unit c.store =
          (outcome, s) →
        Step c { c with store := s, tasks := front ++
          { task with progress := .done outcome } :: back }

/-- A run over the units in memory in some schedule, with its report and the units afterwards, and
whether the flag that cancels it was raised. -/
def Scheduled (s : MemoryStore) (report : Report) (s' : MemoryStore) (isCancelled : Bool) : Prop :=
  let loaded := load (storage false) settings s s.names
  ∃ early c outcomes,
    Relation.ReflTransGen (Step settings loaded.index) (.initial s early loaded.units) c ∧
      c.EndsWith outcomes ∧ report = loaded.report outcomes ∧ s' = c.store ∧
        isCancelled = c.isCancelled

/-! ### Invariants -/

/-- What becomes of a unit in memory unless the run is cancelled. -/
def outcomeOf (u : ClassFile) : Outcome :=
  match u.weave index settings with
  | .error e => .failed e
  | .ok none => .untouched
  | .ok (some w) => .woven w

/-- The units in memory once what became of one of them is written back. -/
def writeBack (name : String) (outcome : Outcome) (s : MemoryStore) : MemoryStore :=
  match outcome with
  | .woven w => if settings.writesOutput then s.write name w.bytes else s
  | _ => s

/-- Units in memory can always be written. -/
theorem process_storage (flag : Bool) (name : String) (u : ClassFile) (s : MemoryStore) :
    process (storage flag) settings index name u s =
      (outcomeOf settings index u, writeBack settings name (outcomeOf settings index u) s) := by
  unfold process outcomeOf
  rcases u.weave index settings with e | _ | w
  · rfl
  · rfl
  · simp only [writeBack]
    split <;> rfl

/-- The task has ended with a woven unit. -/
def Task.IsWoven (task : Task) (w : Woven) : Prop := task.progress = .done (.woven w)

variable {settings index}

theorem outcomeOf_ne_cancelled (u : ClassFile) : outcomeOf settings index u ≠ .cancelled := by
  unfold outcomeOf
  split <;> nofun

/-- The units of a store `s` after some tasks have ended: the woven ones are written, if that is
asked for, and all others are as they were. -/
structure WrittenBack (settings : Settings) (s : MemoryStore) (tasks : List Task)
    (s' : MemoryStore) : Prop where
  /-- The woven units are written. -/
  woven : settings.writesOutput = true → ∀ task ∈ tasks, ∀ w, task.IsWoven w →
    s'.get? task.name = some w.bytes ∧ s'.wasWritten task.name = true
  /-- All others stay. -/
  others : settings.writesOutput = true → ∀ name,
    (∀ task ∈ tasks, task.name = name → ∀ w, ¬ task.IsWoven w) →
      s'.get? name = s.get? name ∧ s'.wasWritten name = s.wasWritten name
  /-- Nothing is written unless that is asked for. -/
  dry : settings.writesOutput = false → s' = s

section

variable {s s' : MemoryStore} {front back : List Task} {task : Task} {p : Progress}

/-- Of the tasks with one replaced, every one but the new one was there. -/
theorem mem_of_mem_replaced (task : Task) {t t' : Task} (h : t ∈ front ++ t' :: back) :
    t = t' ∨ t ∈ front ++ task :: back := by
  simp only [List.mem_append, List.mem_cons] at h ⊢
  tauto

/-- Work that goes on without weaving anything leaves the store. -/
theorem WrittenBack.advance (h : WrittenBack settings s (front ++ task :: back) s')
    (htask : ∀ w, ¬ task.IsWoven w) (hp : ∀ w, p ≠ .done (.woven w)) :
    WrittenBack settings s (front ++ { task with progress := p } :: back) s' := by
  refine ⟨fun hwrites t ht w hw => ?_, fun hwrites name hname => ?_, h.dry⟩
  · rcases mem_of_mem_replaced task ht with rfl | ht
    · exact absurd hw (hp w)
    · exact h.woven hwrites t ht w hw
  · refine h.others hwrites name fun t ht heq w hw => ?_
    have hmem : t ∈ front ++ { task with progress := p } :: back := by
      rcases mem_of_mem_replaced { task with progress := p } ht with rfl | ht
      · exact absurd hw (htask w)
      · exact ht
    exact hname t hmem heq w hw

/-- Work that ends with a woven unit has it written. -/
theorem WrittenBack.advance_woven (h : WrittenBack settings s (front ++ task :: back) s')
    (hnames : ((front ++ task :: back).map (·.name)).Nodup) (w : Woven) :
    WrittenBack settings s (front ++ { task with progress := .done (.woven w) } :: back)
      (writeBack settings task.name (.woven w) s') := by
  have hothers : ∀ t ∈ front ++ back, t.name ≠ task.name := by
    intro t ht heq
    rw [List.map_append, List.map_cons, List.nodup_middle, List.nodup_cons] at hnames
    refine hnames.1 ?_
    rw [← List.map_append, ← heq]
    exact List.mem_map_of_mem ht
  refine ⟨fun hwrites t ht v hv => ?_, fun hwrites name hname => ?_, fun hdry => ?_⟩
  · simp only [writeBack, hwrites, if_true, MemoryStore.get?_write, MemoryStore.wasWritten_write]
    simp only [List.mem_append, List.mem_cons] at ht
    rcases ht with ht | rfl | ht
    · have hne := hothers t (List.mem_append.2 (.inl ht))
      have hwritten := h.woven hwrites t (List.mem_append.2 (.inl ht)) v hv
      simp [hne, hwritten]
    · cases hv
      simp
    · have hne := hothers t (List.mem_append.2 (.inr ht))
      have hwritten := h.woven hwrites t (by simp [ht]) v hv
      simp [hne, hwritten]
  · have hne : name ≠ task.name := by
      rintro rfl
      exact hname { task with progress := .done (.woven w) } (by simp) rfl w rfl
    simp only [writeBack, hwrites, if_true, MemoryStore.get?_write, MemoryStore.wasWritten_write]
    have hkept := h.others hwrites name fun t ht heq v hv => by
      rcases mem_of_mem_replaced { task with progress := .done (.woven w) } ht with rfl | ht
      · exact hne heq.symm
      · exact hname t ht heq v hv
    simp [hne, hkept]
  · simp only [writeBack, hdry]
    exact h.dry hdry

end

/-- What holds at every point of a run over the given units of the store `s`. -/
structure Consistent (settings : Settings) (index : TypeIndex) (units : List (String × ClassFile))
    (s : MemoryStore) (c : Snapshot) : Prop where
  /-- There is a task for each of the units. -/
  units : c.tasks.map (fun task => (task.name, task.unit)) = units
  /-- What became of a unit depends on nothing but the unit, and on the flag. -/
  outcomes : ∀ task ∈ c.tasks, ∀ outcome, task.progress = .done outcome →
    outcome = outcomeOf settings index task.unit ∨ outcome = .cancelled ∧ c.isCancelled = true
  /-- The store holds what was written back so far. -/
  store : WrittenBack settings s c.tasks c.store

variable {units : List (String × ClassFile)} {s : MemoryStore} {c c' : Snapshot}

theorem Consistent.initial (s : MemoryStore) (flag : Bool) (units : List (String × ClassFile)) :
    Consistent settings index units s (.initial s flag units) := by
  have hwaiting : ∀ task ∈ (Snapshot.initial s flag units).tasks, task.progress = .waiting := by
    intro task htask
    obtain ⟨unit, -, rfl⟩ := List.mem_map.1 htask
    rfl
  refine ⟨?_, fun task htask outcome hdone => ?_, ⟨fun _ task htask w hw => ?_,
    fun _ _ _ => ⟨rfl, rfl⟩, fun _ => rfl⟩⟩
  · rw [Snapshot.initial, List.map_map]
    exact List.map_id _
  · rw [hwaiting task htask] at hdone
    cases hdone
  · rw [Task.IsWoven, hwaiting task htask] at hw
    cases hw

theorem Consistent.names (h : Consistent settings index units s c) :
    c.tasks.map (·.name) = units.map Prod.fst := by
  rw [← h.units, List.map_map]
  rfl

/-- Nothing that happens breaks the invariant. -/
theorem Consistent.step (hnames : (units.map Prod.fst).Nodup)
    (h : Consistent settings index units s c) (hstep : Step settings index c c') :
    Consistent settings index units s c' := by
  have hnodup : (c.tasks.map (·.name)).Nodup := h.names ▸ hnames
  cases hstep with
  | raise =>
    refine ⟨h.units, fun task htask outcome hdone => ?_, h.store⟩
    exact (h.outcomes task htask outcome hdone).imp_right fun ⟨heq, _⟩ => ⟨heq, rfl⟩
  | start front task back htasks hwaiting =>
    have hidle : ∀ w, ¬ task.IsWoven w := by
      intro w hw
      rw [Task.IsWoven, hwaiting] at hw
      cases hw
    have hunits := h.units
    have hstore := h.store
    rw [htasks] at hunits hstore
    refine ⟨by simpa using hunits, fun t ht outcome hdone => ?_, hstore.advance hidle ?_⟩
    · rcases mem_of_mem_replaced task ht with rfl | ht
      · cases hflag : c.isCancelled with
        | false => simp [hflag] at hdone
        | true => exact .inr ⟨by simpa [hflag] using hdone.symm, rfl⟩
      · exact h.outcomes t (htasks ▸ ht) outcome hdone
    · intro w
      cases c.isCancelled <;> simp
  | finish front task back outcome s' htasks hstarted hprocess =>
    have hidle : ∀ w, ¬ task.IsWoven w := by
      intro w hw
      rw [Task.IsWoven, hstarted] at hw
      cases hw
    rw [process_storage] at hprocess
    obtain ⟨rfl, rfl⟩ := Prod.mk.inj hprocess
    have hunits := h.units
    have hstore := h.store
    rw [htasks] at hunits hstore hnodup
    refine ⟨by simpa using hunits, fun t ht o hdone => ?_, ?_⟩
    · rcases mem_of_mem_replaced task ht with rfl | ht
      · cases hdone
        exact .inl rfl
      · exact h.outcomes t (htasks ▸ ht) o hdone
    · cases hresult : outcomeOf settings index task.unit with
      | woven w => exact hstore.advance_woven hnodup w
      | untouched | failed | cancelled => exact hstore.advance hidle (by simp)

/-- **The invariant holds at every point of every schedule.** -/
theorem consistent_of_reachable (hnames : (units.map Prod.fst).Nodup) {flag : Bool}
    (h : Relation.ReflTransGen (Step settings index) (.initial s flag units) c) :
    Consistent settings index units s c := by
  induction h with
  | refl => exact .initial s flag units
  | tail _ hstep ih => exact ih.step hnames hstep

/-! ### One after the other -/

variable {flag : Bool} {name : String} {u : ClassFile}

/-- The work on one unit, in one go. -/
theorem reaches_dispatch (front back : List Task) {outcome : Outcome} {s' : MemoryStore}
    (h : dispatch (storage flag) settings index name u s = (outcome, s')) :
    Relation.ReflTransGen (Step settings index) ⟨s, flag, front ++ .ofUnit (name, u) :: back⟩
      ⟨s', flag, front ++ ⟨name, u, .done outcome⟩ :: back⟩ := by
  have hstart : Step settings index _ _ :=
    .start ⟨s, flag, front ++ .ofUnit (name, u) :: back⟩ front _ back rfl rfl
  unfold dispatch at h
  cases flag with
  | true =>
    cases h
    exact .single hstart
  | false =>
    have hprocess : process (storage false) settings index name u s = (outcome, s') := h
    exact .tail (.single hstart) (.finish _ front ⟨name, u, .started⟩ back _ _ rfl rfl hprocess)

/-- Working on units one after the other is a schedule, whatever was worked on before. -/
theorem reaches_dispatchAll (front : List Task) {outcomes : List (String × Outcome)}
    {s' : MemoryStore}
    (h : dispatchAll (storage flag) settings index units s = (outcomes, s')) :
    ∃ tasks, Relation.ReflTransGen (Step settings index)
        ⟨s, flag, front ++ units.map .ofUnit⟩ ⟨s', flag, front ++ tasks⟩ ∧
      List.Forall₂ (fun task outcome => task.name = outcome.1 ∧ task.progress = .done outcome.2)
        tasks outcomes := by
  induction units generalizing s front outcomes with
  | nil =>
    cases h
    exact ⟨[], .refl, .nil⟩
  | cons unit units ih =>
    obtain ⟨name, u⟩ := unit
    unfold dispatchAll at h
    rcases hfirst : dispatch (storage flag) settings index name u s with ⟨outcome, s₁⟩
    rcases hrest : dispatchAll (storage flag) settings index units s₁ with ⟨outcomes', s₂⟩
    simp only [hfirst, hrest] at h
    cases h
    obtain ⟨tasks, hreach, hdone⟩ := ih (front ++ [⟨name, u, .done outcome⟩]) hrest
    refine ⟨⟨name, u, .done outcome⟩ :: tasks, (reaches_dispatch front _ hfirst).trans ?_,
      .cons ⟨rfl, rfl⟩ hdone⟩
    simpa using hreach

/-- **A run is one of its schedules**, with the flag as it was when the run began. -/
theorem scheduled_run (settings : Settings) (flag : Bool) (s : MemoryStore) :
    ∃ report s', run (storage flag) settings s = (.ok report, s') ∧
      Scheduled settings s report s' flag := by
  rcases hall : dispatchAll (storage flag) settings (load (storage flag) settings s s.names).index
    (load (storage flag) settings s s.names).units s with ⟨outcomes, s'⟩
  obtain ⟨tasks, hreach, hdone⟩ := reaches_dispatchAll [] hall
  refine ⟨_, s', ?_, flag, _, outcomes, hreach, hdone, rfl, rfl, rfl⟩
  have hnames : (storage flag).names s = .ok s.names := rfl
  simp only [run, hnames, hall]
  rfl

end Run

end ClassWeave
