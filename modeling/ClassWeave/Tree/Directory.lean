import ClassWeave.Run.Storage
import ClassWeave.Tree.FileTree

/-!
# Directories of class files

A directory holds every unit in a class file, named for the unit and below directories that are
named for its packages.  It is the `DirectorySource`.

* `Directory.nameOf?` : the name of the unit that a file holds, `name_of`.
* `Directory.pathOf` : the path of the file that holds a unit, `path_of`.
* `Directory.names`, `Directory.read`, `Directory.write` : the operations of a store, `names`,
  `read` and `write`; a file is replaced as a whole or not at all.
-/

namespace ClassWeave

/-- A directory of class files. -/
structure Directory where
  /-- The path of the directory. -/
  root : Path
  deriving DecidableEq, Repr

namespace Directory

/-- The extension of class files. -/
def unitExtension : String := "class"

/-- What is appended to the path of a file while it is written. -/
def stagingSuffix : String := ".weaving"

/-- The directory at the path `root`, which is checked when it is opened only. -/
def openAt (t : FileTree) (root : Path) : Except Error Directory :=
  match t.resolve root with
  | .ok (_, .directory) => .ok ⟨root⟩
  | .ok (_, .file _) => .error (.rootNotDirectory root.text)
  | .error fault => .error (.storage fault)

/-- The name of the unit in a file to which `names` lead from the directory; other files than class
files hold none. -/
def nameOf? (names : List String) : Option String :=
  match names.getLast? with
  | none => none
  | some file =>
    if Name.extension? file = some unitExtension then
      some (String.intercalate "/" (Path.components (names.dropLast ++ [Name.dropExtension file])))
    else none

variable (d : Directory)

/-- The path of the file that holds the unit `name`: the names of its packages and its own, with the
extension of class files in place of what follows the last dot. -/
def pathOf (name : String) : Path :=
  (d.root.pushAll (.ofText name)).withExtension unitExtension (by decide)

/-- The path at which that file is written before it takes its place. -/
def stagingPathOf (name : String) : Path := (d.pathOf name).append stagingSuffix (by decide)

/-- The names of all units, sorted. -/
def names (t : FileTree) : Except Error (List String) :=
  match t.resolve d.root with
  | .ok (place, .directory) =>
    .ok (((t.filesBelow place).filterMap (nameOf? ·.1)).mergeSort fun a b => !(b < a))
  | .ok (_, .file _) => .error (.storage .notDirectory)
  | .error fault => .error (.storage fault)

/-- The bytes of the unit `name`. -/
def read (name : String) (t : FileTree) : Except Error Bytes :=
  (t.read (d.pathOf name)).mapError .storage

/-- Makes `data` the bytes of the unit `name`.  They are written beside the file first, and then
take its place; when that fails, what was written is removed. -/
def write (name : String) (data : Bytes) (t : FileTree) : Except Error Unit × FileTree :=
  let staging := d.stagingPathOf name
  match t.write staging data with
  | .error fault => (.error (.storage fault), t.remove staging)
  | .ok staged =>
    match staged.rename staging (d.pathOf name) with
    | .error fault => (.error (.storage fault), staged.remove staging)
    | .ok t => (.ok (), t)

/-- The directory as a store of units. -/
def storage : Storage FileTree where
  names := d.names
  read := d.read
  write := d.write
  isCancelled := fun _ => false

end Directory

end ClassWeave
