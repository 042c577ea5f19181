import ClassWeave.Proofs.Run.Accounting
import ClassWeave.Proofs.Weaving.Obstacles

/-!
# What the index of a run knows

A run knows a type as packed just when the unit stored under the name of the type is scanned under
that name and declares it: units that are stored under other names than their own make no difference
to it.  So what stands in the way of a unit can be told before the run, and in whatever order the
units are worked on, and whatever becomes of the others, the run fails with it.

* `ClassFile.declaredAs?` : what a unit declares for a type.
* `Run.noted?`, `Run.get?_load` : what the index holds.
* `Run.isPacked_load` : which types are known to be packed.
* `Run.Reported`, `Run.reported_run` : the reports that working on the units in any order can end
  with, among them that of a run.
* `Run.Reported.mem_failed`, `Run.Reported.weave_of_mem_woven` : what they tell of a unit.
-/

namespace ClassWeave

/-- The strategy that a unit declares for a type, if that is the name under which it is scanned. -/
def ClassFile.declaredAs? (type : String) (u : ClassFile) : Option Strategy :=
  match u.scan with
  | .ok scan => if scan.name = type then some scan.declared else none
  | .error _ => none

theorem ClassFile.declaredAs?_eq_some {u : ClassFile} {type : String} {s : Strategy} :
    u.declaredAs? type = some s ↔
      ∃ scan, u.scan = .ok scan ∧ scan.name = type ∧ scan.declared = s := by
  unfold declaredAs?
  cases u.scan <;> simp

namespace Run

variable {σ : Type} {storage : Storage σ} {settings : Settings} {s s' : σ} {names : List String}
  {loaded : Loaded} {name type : String} {index : TypeIndex} {u : ClassFile}

/-! ### The index -/

/-- What the index is told of the unit stored under a name. -/
def noted? (storage : Storage σ) (settings : Settings) (s : σ) (name : String) : Option Strategy :=
  match readUnit storage settings s name with
  | .error _ => none
  | .ok u =>
    match scanUnit u name with
    | .ok scan => some scan.declared
    | .error _ => if u.name = .ok name then some .none else none

theorem get?_loadUnit : (loadUnit storage settings s loaded name).index.get? type =
    if type = name then noted? storage settings s name <|> loaded.index.get? type
    else loaded.index.get? type := by
  unfold loadUnit noted?
  cases readUnit storage settings s name with
  | error => simp
  | ok u =>
    cases hscan : scanUnit u name with
    | ok scan =>
      obtain ⟨-, hname⟩ := scanUnit_eq_ok.1 hscan
      simp only [hscan, hname, FiniteMap.get?_insert]
      split <;> rfl
    | error error =>
      simp only [hscan]
      cases u.name with
      | error => simp
      | ok own =>
        by_cases hown : own = name
        · simp only [hown, if_true, FiniteMap.get?_insert]
          split <;> rfl
        · simp [hown]

/-- **The index** holds what it was told of the types themselves. -/
theorem get?_load : (load storage settings s names).index.get? type =
    if type ∈ names then noted? storage settings s type else none := by
  suffices hfold : ∀ loaded : Loaded,
      (names.foldl (loadUnit storage settings s) loaded).index.get? type =
        if type ∈ names then noted? storage settings s type <|> loaded.index.get? type
        else loaded.index.get? type by
    have hload : (load storage settings s names).index.get? type = _ := hfold {}
    simpa using hload
  induction names with
  | nil => simp
  | cons name names ih =>
    intro loaded
    rw [List.foldl_cons, ih, get?_loadUnit]
    by_cases hname : type = name
    · subst hname
      cases noted? storage settings s type <;> simp
    · simp [hname]

/-- A type is known to be packed just when the unit stored under its name declares it. -/
theorem isPacked_load : (load storage settings s names).index.isPacked type = true ↔
    type ∈ names ∧
      ∃ u, readUnit storage settings s type = .ok u ∧ u.declaredAs? type = some .packed := by
  have hnoted : noted? storage settings s type = some .packed ↔
      ∃ u, readUnit storage settings s type = .ok u ∧ u.declaredAs? type = some .packed := by
    unfold noted?
    cases readUnit storage settings s type with
    | error => simp
    | ok u =>
      simp only [Except.ok.injEq, exists_eq_left', ClassFile.declaredAs?_eq_some, ← and_assoc,
        ← scanUnit_eq_ok]
      cases scanUnit u type with
      | ok scan => simp
      | error error =>
        simp only [reduceCtorEq, false_and, exists_false, iff_false]
        split <;> simp
  rw [TypeIndex.isPacked, beq_iff_eq, get?_load, ← hnoted]
  split <;> simp [*]

/-! ### Reports -/

/-- Every unit was worked on, whatever was stored when its turn came. -/
def WorkedOn (storage : Storage σ) (settings : Settings) (index : TypeIndex)
    (units : List (String × ClassFile)) (outcomes : List (String × Outcome)) : Prop :=
  List.Forall₂ (fun unit outcome => outcome.1 = unit.1 ∧
    ∃ s, outcome.2 = (dispatch storage settings index unit.1 unit.2 s).1) units outcomes

/-- The report can be that of a run over the store, in whatever order the units are worked on. -/
def Reported (storage : Storage σ) (settings : Settings) (s : σ) (report : Report) : Prop :=
  ∃ names outcomes, storage.names s = .ok names ∧
    WorkedOn storage settings (load storage settings s names).index
      (load storage settings s names).units outcomes ∧
    report = (load storage settings s names).report outcomes

theorem workedOn_dispatchAll (units : List (String × ClassFile)) (s : σ) :
    WorkedOn storage settings index units
      (dispatchAll storage settings index units s).1 := by
  induction units generalizing s with
  | nil => exact .nil
  | cons unit units ih => exact .cons ⟨rfl, s, rfl⟩ (ih _)

theorem WorkedOn.exists_mem {units : List (String × ClassFile)} {outcomes : List (String × Outcome)}
    (h : WorkedOn storage settings index units outcomes) (hmem : (name, u) ∈ units) :
    ∃ s, (name, (dispatch storage settings index name u s).1) ∈ outcomes := by
  obtain ⟨⟨own, outcome⟩, houtcome, hname, s, hdispatch⟩ := exists_of_mem_left h hmem
  simp only at hname hdispatch
  rw [hname, hdispatch] at houtcome
  exact ⟨s, houtcome⟩

theorem WorkedOn.exists_unit {units : List (String × ClassFile)}
    {outcomes : List (String × Outcome)} {outcome : Outcome}
    (h : WorkedOn storage settings index units outcomes) (hmem : (name, outcome) ∈ outcomes) :
    ∃ u s, (name, u) ∈ units ∧ outcome = (dispatch storage settings index name u s).1 := by
  obtain ⟨⟨own, u⟩, hunit, rfl, s, hdispatch⟩ := exists_of_mem_right h hmem
  exact ⟨u, s, hunit, hdispatch⟩

/-- Working on the units one after the other is one of the orders. -/
theorem reported_run {report : Report} (h : run storage settings s = (.ok report, s')) :
    Reported storage settings s report := by
  unfold run at h
  cases hnames : storage.names s with
  | error e =>
    rw [hnames] at h
    cases h
  | ok names =>
    rw [hnames] at h
    cases h
    exact ⟨names, _, hnames, workedOn_dispatchAll _ _, rfl⟩

theorem unit_unique {v : ClassFile} (hu : (name, u) ∈ (load storage settings s names).units)
    (hv : (name, v) ∈ (load storage settings s names).units) : v = u :=
  Except.ok.inj ((mem_units_load.1 hv).2.symm.trans (mem_units_load.1 hu).2)

theorem outcomeOf_eq_failed {e : Error} :
    outcomeOf settings index u = .failed e ↔ u.weave index settings = .error e := by
  unfold outcomeOf
  split <;> simp [*]

/-- When weaving fails nothing is written. -/
theorem dispatch_of_weave {e : Error} (hflag : storage.isCancelled s = false)
    (h : u.weave index settings = .error e) :
    (dispatch storage settings index name u s).1 = .failed e := by
  simp [dispatch, process, hflag, h]

/-- Work on a unit ends as weaving does, or as writing fails. -/
theorem dispatch_cases (hflag : storage.isCancelled s = false) :
    (dispatch storage settings index name u s).1 = outcomeOf settings index u ∨
      ∃ data e, (storage.write name data s).1 = .error e ∧
        (dispatch storage settings index name u s).1 = .failed e := by
  simp only [dispatch, hflag, Bool.false_eq_true, if_false, process, outcomeOf]
  rcases u.weave index settings with e | _ | w
  · exact .inl rfl
  · exact .inl rfl
  · simp only
    split
    · rcases hwrite : storage.write name w.bytes s with ⟨e | _, t⟩
      · exact .inr ⟨w.bytes, e, by rw [hwrite], rfl⟩
      · exact .inl rfl
    · exact .inl rfl

namespace Reported

variable {report : Report} (h : Reported storage settings s report)
  (hnames : storage.names s = .ok names) (hflag : ∀ s, storage.isCancelled s = false)
  (hmem : (name, u) ∈ (load storage settings s names).units)
include h hnames hflag hmem

/-- A unit that can be worked on is among the failed ones with an error of validation just when
weaving fails with it, as long as writing fails in other ways. -/
theorem mem_failed {e : Error} (he : e.kind ∈ ErrorKind.obstacles)
    (hwrite : ∀ name data s e, (storage.write name data s).1 = .error e →
      e.kind ∉ ErrorKind.obstacles) :
    { name, error := e } ∈ report.failed ↔
      u.weave (load storage settings s names).index settings = .error e := by
  obtain ⟨names', outcomes, hnames', hworked, rfl⟩ := h
  obtain rfl := Except.ok.inj (hnames.symm.trans hnames')
  rw [mem_failed_report]
  constructor
  · rintro (hfailed | houtcome)
    · have hscanned := (mem_units_load.1 hmem).2
      rw [(mem_failed_load.1 hfailed).2] at hscanned
      cases hscanned
    · obtain ⟨v, t, hunit, hdispatch⟩ := hworked.exists_unit houtcome
      obtain rfl := unit_unique hmem hunit
      rcases dispatch_cases (hflag t) with hends | ⟨data, cause, hfails, hends⟩
      · exact outcomeOf_eq_failed.1 (hends.symm.trans hdispatch.symm)
      · obtain rfl := Outcome.failed.inj (hdispatch.trans hends)
        exact absurd he (hwrite _ data t e hfails)
  · intro hweave
    obtain ⟨t, houtcome⟩ := hworked.exists_mem hmem
    rw [dispatch_of_weave (hflag t) hweave] at houtcome
    exact .inr houtcome

/-- A unit that can be worked on is among the woven ones only if weaving succeeds. -/
theorem weave_of_mem_woven {w : Woven} (hw : w ∈ report.woven) (hname : w.name = name) :
    u.weave (load storage settings s names).index settings = .ok (some w) := by
  obtain ⟨names', outcomes, hnames', hworked, rfl⟩ := h
  obtain rfl := Except.ok.inj (hnames.symm.trans hnames')
  obtain ⟨⟨own, outcome⟩, houtcome, rfl⟩ := mem_woven_report.1 hw
  obtain ⟨v, t, hunit, hdispatch⟩ := hworked.exists_unit houtcome
  have hweave : v.weave (load storage settings s names).index settings = .ok (some w) := by
    rcases dispatch_cases (hflag t) with hends | ⟨data, cause, -, hends⟩
    · exact outcomeOf_eq_woven.1 (hends.symm.trans hdispatch.symm)
    · cases hdispatch.trans hends
  -- the unit that was woven is the one that is stored under its name
  obtain ⟨-, scan, hscanned⟩ := readScanned_eq_ok.1 (mem_units_load.1 hunit).2
  obtain ⟨hscan, hown⟩ := scanUnit_eq_ok.1 hscanned
  obtain rfl : own = name := hown.symm.trans ((name_of_weave hscan hweave).symm.trans hname)
  obtain rfl := unit_unique hmem hunit
  exact hweave

end Reported

end Run

end ClassWeave
