import ClassWeave.Command.Document
import ClassWeave.Command.Failure
import ClassWeave.Command.Table
import ClassWeave.Tree.Directory
import ClassWeave.Weaving.Transform

/-!
# The command that inspects a class file

* `Directory.index` : the index of the units in a directory; those that cannot be read or scanned
  are left out.
* `InspectRequest.run` : what is found in a class file, with `preview` in the index of the others.
* `Inspection.lines`, `Inspection.document` : the same for readers and for programs.
-/

namespace ClassWeave

/-- What the command is asked for. -/
structure InspectRequest where
  /-- The path of the class file. -/
  file : String
  /-- The path of the directory that holds the other units. -/
  classes? : Option String := none
  deriving DecidableEq, Repr

/-- What is found in a class file. -/
structure Inspection where
  /-- The minor version. -/
  minor : UInt16
  /-- The major version. -/
  major : UInt16
  /-- What weaving it would do. -/
  preview : Preview
  deriving DecidableEq, Repr

/-- The index with the unit `u` under its own name, if it can be scanned. -/
def TypeIndex.insertScanned (index : TypeIndex) (u : ClassFile) : TypeIndex :=
  match u.scan with
  | .ok scan => index.insert scan.name scan.declared
  | .error _ => index

/-- The units in the directory `d` that can be read, in the order of their names. -/
def Directory.readable (d : Directory) (t : FileTree) : Except Error (List ClassFile) := do
  return (← d.names t).filterMap fun name =>
    match d.read name t with
    | .ok data => (ClassFile.read {} data).toOption
    | .error _ => none

/-- The index of the units in the directory `d`. -/
def Directory.index (d : Directory) (t : FileTree) : Except Error TypeIndex := do
  return (← d.readable t).foldl TypeIndex.insertScanned .empty

namespace InspectRequest

variable (r : InspectRequest)

/-- The index of the other units. -/
def index (t : FileTree) : Except Failure TypeIndex :=
  match r.classes? with
  | none => .ok .empty
  | some root =>
    match Directory.openAt t (.ofText root) with
    | .error e => .error (.during (.openingDirectory root) e.causes)
    | .ok d => (d.index t).mapError .ofError

/-- The unit in the file. -/
def unit (t : FileTree) : Except Failure ClassFile :=
  match t.read (.ofText r.file) with
  | .error fault => .error (.during (.readingFile r.file) [fault.message])
  | .ok data =>
    (ClassFile.read {} data).mapError fun cause =>
      .during (.parsing r.file) (Error.malformed cause).causes

/-- What is found in the file.  The unit itself counts among the others. -/
def run (t : FileTree) : Except Failure Inspection := do
  let u ← r.unit t
  let index ← r.index t
  match u.preview (index.insertScanned u) with
  | .ok preview => return { minor := u.minor, major := u.major, preview }
  | .error e => throw (.during (.inspecting r.file) e.causes)

end InspectRequest

namespace Inspection

variable (i : Inspection)

/-- The version of the unit. -/
def version : String := s!"{i.major}.{i.minor}"

/-- The strategy by which the unit was woven. -/
def wovenAs? : Option String :=
  i.preview.woven?.map fun record => (record.strategy?.map Strategy.label).getD "unknown"

/-- The fingerprint that was recorded when the unit was woven. -/
def fingerprint? : Option String := i.preview.woven?.bind (·.fingerprint?)

/-- The bytes per instance of a unit that would be packed. -/
def stride? : Option Nat := i.preview.layout?.map (·.stride)

/-- Why the unit cannot be woven. -/
def problem? : Option String := i.preview.problem?.map Error.message

/-- The bytes that the field `f` would take in the buffer. -/
def sizeOf? (f : Field) : Option Nat :=
  (i.preview.layout?.bind (·.field? f.name)).map (·.size)

/-! ### For readers -/

/-- The line of the summary behind `label`, if there is something to show. -/
def line (label : String) : Option String → List String
  | some value => [label ++ String.ofList (List.replicate (17 - label.length) ' ') ++ value]
  | none => []

/-- The table of fields. -/
def fieldTable : Table where
  columns := [("Field", .left), ("Kind", .left), ("Offset", .right), ("Size", .right)]
  rows := i.preview.fields.map fun f =>
    [f.name, f.kind.text, (f.offset?.map toString).getD "", ((i.sizeOf? f).map toString).getD ""]

/-- What is found, as lines. -/
def lines : List String :=
  let p := i.preview
  let fields := if p.fields.isEmpty then [] else "" :: i.fieldTable.lines
  line "Class:" (some p.name) ++ line "Extends:" p.superName? ++ line "Version:" (some i.version) ++
    line "Declared:" (some p.declared.label) ++ line "Classification:" (some p.effective.label) ++
    line "Woven as:" i.wovenAs? ++ line "Fingerprint:" i.fingerprint? ++
    line "Stride:" (i.stride?.map (s!"{·} bytes")) ++ line "Problem:" i.problem? ++ fields

/-! ### For programs -/

/-- The field `f` as a document. -/
def fieldDocument (f : Field) : Document :=
  .record ([("name", .text f.name), ("kind", .text f.kind.text)] ++
    Document.optional "offset" (f.offset?.map .number) ++
    Document.optional "size" ((i.sizeOf? f).map .number))

/-- What is found, as a document. -/
def document : Document :=
  let p := i.preview
  let shown (key : String) (text? : Option String) := Document.optional key (text?.map .text)
  .record ([("name", .text p.name)] ++ shown "super_name" p.superName? ++
    [("version", .text i.version), ("declared", .text p.declared.label),
      ("classification", .text p.effective.label)] ++
    shown "woven_as" i.wovenAs? ++ shown "fingerprint" i.fingerprint? ++
    Document.optional "stride" (i.stride?.map .number) ++
    [("fields", .list (i.preview.fields.map i.fieldDocument))] ++ shown "problem" i.problem?)

end Inspection

end ClassWeave
