import ClassWeave.Run.Report
import ClassWeave.Run.Storage

/-!
# Weaving all units

A run first reads and scans every unit, so that each can be woven knowing which types there are and
what they declare, and then works on the units one by one.  What goes wrong with one unit is noted
and does not keep the others from being woven.

* `Run.load` : reading and scanning; yields the index, the readable units and the failures.  For one
  unit, `Run.readUnit` is `load` and `Run.scanUnit` is `scan`.
* `Run.dispatch`, `Run.process` : the work on one unit, `dispatch`, and what of it remains once it
  has started.
* `Run.Loaded.report` : the report on what became of all units.
* `Run.run` : a whole run, `run`, with the units one after the other.  Other schedules are those of
  `Proofs/Run/Schedule`.
-/

namespace ClassWeave

namespace Run

variable {σ : Type}

/-! ### Reading -/

/-- What reading all units comes to. -/
structure Loaded where
  /-- Which types there are, and what they declare. -/
  index : TypeIndex := .empty
  /-- The units that can be worked on, with the names they are stored under. -/
  units : List (String × ClassFile) := []
  /-- The units that cannot. -/
  failed : List UnitFailure := []
  deriving DecidableEq, Repr

/-- Reads the unit `name` of the store `s`. -/
def readUnit (storage : Storage σ) (settings : Settings) (s : σ) (name : String) :
    Except Error ClassFile := do
  let data ← storage.read name s
  ClassFile.read settings.versions data

/-- Scans the unit `u`, which has to be stored under its own name and is stored under `name`. -/
def scanUnit (u : ClassFile) (name : String) : Except Error Scan := do
  let scan ← u.scan
  if scan.name ≠ name then throw (.malformed (.storedUnder scan.name name))
  return scan

/-- Takes note of the unit `name`.  One that cannot be scanned but is stored under its own name is
known as a type that declares nothing. -/
def loadUnit (storage : Storage σ) (settings : Settings) (s : σ) (loaded : Loaded)
    (name : String) : Loaded :=
  match readUnit storage settings s name with
  | .error error => { loaded with failed := loaded.failed ++ [{ name, error }] }
  | .ok u =>
    match scanUnit u name with
    | .ok scan =>
      { loaded with
        index := loaded.index.insert scan.name scan.declared
        units := loaded.units ++ [(name, u)] }
    | .error error =>
      let index := match u.name with
        | .ok own => if own = name then loaded.index.insert name .none else loaded.index
        | .error _ => loaded.index
      { loaded with index, failed := loaded.failed ++ [{ name, error }] }

/-- Reads and scans the units of these `names`, in this order. -/
def load (storage : Storage σ) (settings : Settings) (s : σ) (names : List String) : Loaded :=
  names.foldl (loadUnit storage settings s) {}

/-! ### Working -/

/-- What becomes of a unit. -/
inductive Outcome where
  | woven (w : Woven)
  | untouched
  | failed (error : Error)
  | cancelled
  deriving DecidableEq, Repr

/-- Weaves the unit `u` and, if the settings ask for it, writes it back as `name`. -/
def process (storage : Storage σ) (settings : Settings) (index : TypeIndex) (name : String)
    (u : ClassFile) (s : σ) : Outcome × σ :=
  match u.weave index settings with
  | .error e => (.failed e, s)
  | .ok none => (.untouched, s)
  | .ok (some w) =>
    if settings.writesOutput then
      match storage.write name w.bytes s with
      | (.ok _, s) => (.woven w, s)
      | (.error e, s) => (.failed e, s)
    else (.woven w, s)

/-- Works on the unit `u` unless the run is to be cancelled. -/
def dispatch (storage : Storage σ) (settings : Settings) (index : TypeIndex) (name : String)
    (u : ClassFile) (s : σ) : Outcome × σ :=
  if storage.isCancelled s then (.cancelled, s) else process storage settings index name u s

/-- Works on units in a row. -/
def dispatchAll (storage : Storage σ) (settings : Settings) (index : TypeIndex) :
    List (String × ClassFile) → σ → List (String × Outcome) × σ
  | [], s => ([], s)
  | (name, u) :: units, s =>
    let (outcome, s) := dispatch storage settings index name u s
    let (outcomes, s) := dispatchAll storage settings index units s
    ((name, outcome) :: outcomes, s)

/-- The report `r` with what became of one more unit. -/
def record (r : Report) : String × Outcome → Report
  | (_, .woven w) => { r with woven := r.woven ++ [w] }
  | (name, .untouched) => { r with untouched := r.untouched ++ [name] }
  | (name, .failed error) => { r with failed := r.failed ++ [{ name, error }] }
  | (name, .cancelled) => { r with cancelled := r.cancelled ++ [name] }

/-- The report on the units that could not be worked on, and on the `outcomes` of the others. -/
def Loaded.report (loaded : Loaded) (outcomes : List (String × Outcome)) : Report :=
  (outcomes.foldl record { failed := loaded.failed }).sorted

/-- A run over all units of the store `s`. -/
def run (storage : Storage σ) (settings : Settings) (s : σ) : Except Error Report × σ :=
  match storage.names s with
  | .error e => (.error e, s)
  | .ok names =>
    let loaded := load storage settings s names
    let (outcomes, s) := dispatchAll storage settings loaded.index loaded.units s
    (.ok (loaded.report outcomes), s)

end Run

end ClassWeave
