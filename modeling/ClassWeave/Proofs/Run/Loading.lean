import ClassWeave.Proofs.Except
import ClassWeave.Run.Basic
import Mathlib.Data.List.Perm.Basic

/-!
# What reading all units comes to

* `Run.Loaded.Covers` : every unit that was read can be worked on or has failed, and the index knows
  no more than what was scanned.
* `Run.covers_load` : this holds of what reading all units comes to.
* `Run.readScanned`, `Run.mem_units_load`, `Run.mem_failed_load` : which units can be worked on, and
  why the others cannot.
-/

namespace ClassWeave

namespace Run

variable {σ : Type} {storage : Storage σ} {settings : Settings} {s : σ} {names : List String}
  {loaded : Loaded} {name : String}

/-- A unit is scanned when it is stored under its own name. -/
theorem scanUnit_eq_ok {u : ClassFile} {scan : Scan} :
    scanUnit u name = .ok scan ↔ u.scan = .ok scan ∧ scan.name = name := by
  unfold scanUnit
  rw [except_bind_eq_ok]
  constructor
  · rintro ⟨scan', hscan, h⟩
    split at h
    · cases h
    · rename_i hname
      obtain rfl := except_pure_eq_ok.1 h
      exact ⟨hscan, not_not.1 hname⟩
  · rintro ⟨hscan, hname⟩
    refine ⟨scan, hscan, ?_⟩
    rw [if_neg (not_not.2 hname)]
    rfl

/-- What was noted while the units of the given names were read. -/
structure Loaded.Covers (storage : Storage σ) (settings : Settings) (s : σ) (names : List String)
    (loaded : Loaded) : Prop where
  /-- Every unit can be worked on, or has failed. -/
  names : (loaded.units.map Prod.fst ++ loaded.failed.map (·.name)).Perm names
  /-- A unit that can be worked on is what is stored, and was scanned under its own name. -/
  units : ∀ name u, (name, u) ∈ loaded.units → readUnit storage settings s name = .ok u ∧
    ∃ scan, u.scan = .ok scan ∧ scan.name = name
  /-- Whatever is known to declare a strategy can be worked on. -/
  index : ∀ name strategy, loaded.index.get? name = some strategy → strategy ≠ .none →
    ∃ u scan, (name, u) ∈ loaded.units ∧ u.scan = .ok scan ∧ scan.declared = strategy

namespace Loaded.Covers

theorem nil : Covers storage settings s [] {} :=
  ⟨.refl _, by simp, by simp⟩

/-- A unit that failed. -/
theorem failed (h : loaded.Covers storage settings s names) (name : String) (error : Error)
    {index : TypeIndex} (hindex : ∀ other strategy, index.get? other = some strategy →
      strategy ≠ .none → loaded.index.get? other = some strategy) :
    Covers storage settings s (names ++ [name])
      { loaded with index, failed := loaded.failed ++ [{ name, error }] } := by
  refine ⟨?_, h.units, fun other strategy hother hne => ?_⟩
  · rw [List.map_append, ← List.append_assoc]
    exact h.names.append_right _
  · exact h.index other strategy (hindex other strategy hother hne) hne

/-- A unit that can be worked on. -/
theorem scanned (h : loaded.Covers storage settings s names) {name : String} {u : ClassFile}
    {scan : Scan} (hread : readUnit storage settings s name = .ok u)
    (hscan : u.scan = .ok scan) (hname : scan.name = name) :
    Covers storage settings s (names ++ [name])
      { loaded with
        index := loaded.index.insert scan.name scan.declared
        units := loaded.units ++ [(name, u)] } := by
  refine ⟨?_, fun other v hmem => ?_, fun other strategy hother hne => ?_⟩
  · rw [List.map_append, List.append_assoc]
    refine (List.perm_append_comm.append_left _).trans ?_
    rw [← List.append_assoc]
    exact h.names.append_right _
  · rcases List.mem_append.1 hmem with hmem | hmem
    · exact h.units other v hmem
    · obtain ⟨rfl, rfl⟩ := Prod.mk.inj (List.mem_singleton.1 hmem)
      exact ⟨hread, scan, hscan, hname⟩
  · rw [FiniteMap.get?_insert] at hother
    split_ifs at hother with heq
    · cases hother
      exact ⟨u, scan, by simp [heq, hname], hscan, rfl⟩
    · obtain ⟨v, scan', hmem, hscan', hdeclared⟩ := h.index other strategy hother hne
      exact ⟨v, scan', List.mem_append_left _ hmem, hscan', hdeclared⟩

/-- One more unit. -/
theorem loadUnit (h : loaded.Covers storage settings s names) (name : String) :
    (Run.loadUnit storage settings s loaded name).Covers storage settings s (names ++ [name]) := by
  unfold Run.loadUnit
  split
  · exact h.failed name _ fun _ _ hother _ => hother
  · rename_i u hread
    split
    · rename_i scan hscan
      obtain ⟨hscan, hname⟩ := scanUnit_eq_ok.1 hscan
      exact h.scanned hread hscan hname
    · refine h.failed name _ fun other strategy hother hne => ?_
      -- a unit that cannot be scanned is known to declare nothing
      split at hother
      · split_ifs at hother
        · rw [FiniteMap.get?_insert] at hother
          split_ifs at hother
          · cases hother
            exact absurd rfl hne
          · exact hother
        · exact hother
      · exact hother

end Loaded.Covers

/-- **Reading all units** accounts for each of them. -/
theorem covers_load (storage : Storage σ) (settings : Settings) (s : σ) (names : List String) :
    (load storage settings s names).Covers storage settings s names := by
  suffices hfold : ∀ (rest done : List String) (loaded : Loaded),
      loaded.Covers storage settings s done →
        (rest.foldl (loadUnit storage settings s) loaded).Covers storage settings s
          (done ++ rest) by
    exact hfold names [] {} .nil
  intro rest
  induction rest with
  | nil =>
    intro done loaded h
    rwa [List.append_nil]
  | cons name rest ih =>
    intro done loaded h
    have hrest := ih _ _ (h.loadUnit name)
    rwa [List.append_assoc] at hrest

/-! ### Units in memory -/

section

variable {s t : MemoryStore} {u : ClassFile}

theorem mem_keys : name ∈ s.units.keys ↔ (s.get? name).isSome = true := by
  rw [MemoryStore.get?, FiniteMap.get?, List.lookup_isSome_iff]
  simp [FiniteMap.keys]

theorem mem_names : name ∈ s.names ↔ (s.get? name).isSome = true :=
  List.mem_mergeSort.trans mem_keys

theorem readUnit_storage : readUnit (MemoryStore.storage false) settings s name = .ok u ↔
    ∃ b, s.get? name = some b ∧ ClassFile.read settings.versions b = .ok u := by
  have hread : (MemoryStore.storage false).read name s = s.read name := rfl
  rw [readUnit, except_bind_eq_ok, hread, MemoryStore.read]
  cases s.get? name <;> simp [except_liftM_eq_ok]

/-- Reading depends on no more than what is stored under the name. -/
theorem readUnit_congr (h : t.get? name = s.get? name) :
    readUnit (MemoryStore.storage false) settings t name =
      readUnit (MemoryStore.storage false) settings s name := by
  have hread :
      (MemoryStore.storage false).read name t = (MemoryStore.storage false).read name s := by
    show t.read name = s.read name
    rw [MemoryStore.read, MemoryStore.read, h]
  rw [readUnit, readUnit, hread]

end

/-! ### Which units can be worked on -/

/-- Reads a unit, which has to be scanned under its own name. -/
def readScanned (storage : Storage σ) (settings : Settings) (s : σ) (name : String) :
    Except Error ClassFile := do
  let u ← readUnit storage settings s name
  let _ ← scanUnit u name
  return u

theorem readScanned_eq_ok {u : ClassFile} : readScanned storage settings s name = .ok u ↔
    readUnit storage settings s name = .ok u ∧ ∃ scan, scanUnit u name = .ok scan := by
  simp only [readScanned, except_bind_eq_ok, except_pure_eq_ok]
  constructor
  · rintro ⟨_, hread, scan, hscan, rfl⟩
    exact ⟨hread, scan, hscan⟩
  · rintro ⟨hread, scan, hscan⟩
    exact ⟨u, hread, scan, hscan, rfl⟩

/-- A unit that can be worked on. -/
def scanned? (storage : Storage σ) (settings : Settings) (s : σ) (name : String) :
    Option (String × ClassFile) :=
  match readScanned storage settings s name with
  | .ok u => some (name, u)
  | .error _ => none

/-- A unit that cannot. -/
def unscanned? (storage : Storage σ) (settings : Settings) (s : σ) (name : String) :
    Option UnitFailure :=
  match readScanned storage settings s name with
  | .ok _ => none
  | .error error => some { name, error }

theorem scanned?_eq_some {other : String} {u : ClassFile} :
    scanned? storage settings s other = some (name, u) ↔
      other = name ∧ readScanned storage settings s name = .ok u := by
  unfold scanned?
  split <;> grind

theorem unscanned?_eq_some {other : String} {error : Error} :
    unscanned? storage settings s other = some { name, error } ↔
      other = name ∧ readScanned storage settings s name = .error error := by
  unfold unscanned?
  split <;> grind

/-- One unit is noted in one of the lists. -/
theorem lists_loadUnit (loaded : Loaded) (name : String) :
    (loadUnit storage settings s loaded name).units =
        loaded.units ++ (scanned? storage settings s name).toList ∧
      (loadUnit storage settings s loaded name).failed =
        loaded.failed ++ (unscanned? storage settings s name).toList := by
  unfold loadUnit scanned? unscanned? readScanned
  cases readUnit storage settings s name with
  | error error => simp [bind, Except.bind]
  | ok u => cases hscan : scanUnit u name <;> simp [bind, Except.bind, pure, Except.pure, hscan]

/-- **Which units can be worked on** is decided for each by itself. -/
theorem lists_load : (load storage settings s names).units =
      names.filterMap (scanned? storage settings s) ∧
    (load storage settings s names).failed = names.filterMap (unscanned? storage settings s) := by
  suffices hfold : ∀ loaded : Loaded,
      (names.foldl (loadUnit storage settings s) loaded).units =
          loaded.units ++ names.filterMap (scanned? storage settings s) ∧
        (names.foldl (loadUnit storage settings s) loaded).failed =
          loaded.failed ++ names.filterMap (unscanned? storage settings s) by
    exact hfold {}
  induction names with
  | nil => simp
  | cons name names ih =>
    intro loaded
    obtain ⟨hunits, hfailed⟩ := ih (loadUnit storage settings s loaded name)
    rw [List.foldl_cons, hunits, hfailed, (lists_loadUnit loaded name).1,
      (lists_loadUnit loaded name).2, List.filterMap_cons, List.filterMap_cons]
    cases scanned? storage settings s name <;> cases unscanned? storage settings s name <;> simp

theorem mem_units_load {u : ClassFile} : (name, u) ∈ (load storage settings s names).units ↔
    name ∈ names ∧ readScanned storage settings s name = .ok u := by
  rw [lists_load.1, List.mem_filterMap]
  simp only [scanned?_eq_some]
  exact ⟨fun ⟨_, hname, rfl, hread⟩ => ⟨hname, hread⟩, fun ⟨hname, hread⟩ => ⟨_, hname, rfl, hread⟩⟩

theorem mem_failed_load {error : Error} :
    { name, error } ∈ (load storage settings s names).failed ↔
      name ∈ names ∧ readScanned storage settings s name = .error error := by
  rw [lists_load.2, List.mem_filterMap]
  simp only [unscanned?_eq_some]
  exact ⟨fun ⟨_, hname, rfl, hread⟩ => ⟨hname, hread⟩, fun ⟨hname, hread⟩ => ⟨_, hname, rfl, hread⟩⟩

end Run

end ClassWeave
