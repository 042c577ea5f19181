import ClassWeave.Weaving.Transform

/-!
# Reports

A run accounts for every unit: it was woven, there was nothing to do, it failed, or the run was
cancelled before it came to it.

* `Report` : what became of the units, the `WeaveReport`.
* `Report.sorted` : the lists in the order of the names, `sort`.
* `Report.check` : the error of a run that did not do all it should, `check`.
-/

namespace ClassWeave

/-- A unit that failed. -/
structure UnitFailure where
  /-- The name under which the unit is stored. -/
  name : String
  /-- Why it failed. -/
  error : Error
  deriving DecidableEq, Repr

/-- What became of the units of a run. -/
structure Report where
  /-- The woven units. -/
  woven : List Woven := []
  /-- The units that there was nothing to do for. -/
  untouched : List String := []
  /-- The units that failed. -/
  failed : List UnitFailure := []
  /-- The units that a cancelled run did not come to. -/
  cancelled : List String := []
  deriving DecidableEq, Repr

namespace Report

variable (r : Report)

/-- The number of units that are as they should be. -/
def successCount : Nat := r.woven.length + r.untouched.length

/-- The number of units that failed. -/
def failureCount : Nat := r.failed.length

/-- The number of all units. -/
def total : Nat := r.successCount + r.failureCount + r.cancelled.length

/-- Some unit failed. -/
def hasFailures : Bool := !r.failed.isEmpty

/-- No unit failed, and the run was not cancelled. -/
def isComplete : Bool := r.failed.isEmpty && r.cancelled.isEmpty

/-- The failure of the unit `name`, if it failed. -/
def failure? (name : String) : Option UnitFailure := r.failed.find? (·.name == name)

/-- The woven unit `name`, if it was woven. -/
def woven? (name : String) : Option Woven := r.woven.find? (·.name == name)

/-- The error of a run that was cancelled, which nobody tolerates, or in which units failed unless
it is `tolerant`. -/
def check (tolerant : Bool) : Except Error Unit := do
  if !r.cancelled.isEmpty then throw (.cancelled r.cancelled.length)
  if r.hasFailures && !tolerant then throw (.unitsFailed (r.failed.map (·.name)))

/-- Whether the name `a` comes before `b` or is `b`. -/
def nameLe (a b : String) : Bool := !(b < a)

/-- The report with every list in the order of the names. -/
def sorted : Report where
  woven := r.woven.mergeSort fun a b => nameLe a.name b.name
  untouched := r.untouched.mergeSort nameLe
  failed := r.failed.mergeSort fun a b => nameLe a.name b.name
  cancelled := r.cancelled.mergeSort nameLe

end Report

end ClassWeave
