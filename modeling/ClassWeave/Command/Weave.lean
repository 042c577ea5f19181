import ClassWeave.Command.Document
import ClassWeave.Command.Failure
import ClassWeave.Command.Table
import ClassWeave.Run.Basic
import ClassWeave.Tree.Directory

/-!
# The command that weaves a directory

* `WeaveRequest.run` : the report of a run over a directory, and the tree after it.
* `Report.lines`, `Report.document` : the report for readers and for programs.
-/

namespace ClassWeave

/-- What the command is asked for. -/
structure WeaveRequest where
  /-- The path of the directory. -/
  root : String
  /-- How many units are worked on at once. -/
  threads : Nat := 0
  /-- Whether nothing is to be written. -/
  dryRun : Bool := false
  /-- Whether failed units are tolerated. -/
  tolerant : Bool := false
  deriving DecidableEq, Repr

namespace WeaveRequest

variable (r : WeaveRequest)

/-- The settings of the run. -/
def settings : Settings :=
  { threads := r.threads, writesOutput := !r.dryRun, toleratesFailures := r.tolerant }

/-- The run over the directory, which is in the tree `t`. -/
def run (t : FileTree) : Except Failure Report × FileTree :=
  match Directory.openAt t (.ofText r.root) with
  | .error e => (.error (.during (.openingDirectory r.root) e.causes), t)
  | .ok d =>
    match Run.run d.storage r.settings t with
    | (.error e, t) => (.error (.during (.weaving r.root) e.causes), t)
    | (.ok report, t) => (.ok report, t)

end WeaveRequest

/-- The bytes per instance of `w`, if it was packed. -/
def Woven.stride? (w : Woven) : Option Nat := w.layout?.map (·.stride)

namespace Report

variable (r : Report)

/-! ### For readers -/

/-- The table of woven units. -/
def wovenTable : Table where
  columns := [("Class", .left), ("Strategy", .left), ("Stride", .right)]
  rows := r.woven.map fun w =>
    [w.name, w.strategy.label, (w.stride?.map toString).getD "-"]

/-- The table of failed units. -/
def failedTable : Table where
  columns := [("Class", .left), ("Error", .left), ("", .left)]
  rows := r.failed.map fun f => [f.name, f.error.kind.name, f.error.message]

/-- The numbers of units. -/
def tally : String :=
  let cancelled := if r.cancelled.isEmpty then "" else s!", {r.cancelled.length} cancelled"
  s!"{r.woven.length} woven, {r.untouched.length} untouched, {r.failed.length} failed" ++ cancelled

/-- The report as lines. -/
def lines (dryRun : Bool) : List String :=
  let woven := if r.woven.isEmpty then [] else
    (if dryRun then "Would weave:" else "Woven:") :: r.wovenTable.lines
  let failed := if r.failed.isEmpty then [] else "Failed:" :: r.failedTable.lines
  woven ++ failed ++ [r.tally]

/-! ### For programs -/

/-- The woven unit `w` as a document. -/
def wovenDocument (w : Woven) : Document :=
  .record ([("name", .text w.name), ("strategy", .text w.strategy.label)] ++
    Document.optional "stride" (w.stride?.map .number))

/-- The failed unit `f` as a document. -/
def failedDocument (f : UnitFailure) : Document :=
  .record [("name", .text f.name), ("kind", .text f.error.kind.name),
    ("message", .text f.error.message)]

/-- The report as a document. -/
def document (dryRun : Bool) : Document :=
  let cancelled := if r.cancelled.isEmpty then none else
    some (Document.list (r.cancelled.map .text))
  .record ([("dry_run", .flag dryRun), ("woven", .list (r.woven.map wovenDocument)),
    ("untouched", .list (r.untouched.map .text)),
    ("failed", .list (r.failed.map failedDocument))] ++ Document.optional "cancelled" cancelled)

end Report

end ClassWeave
