import ClassWeave.Error
import ClassWeave.FiniteMap
import ClassWeave.Tree.Path

/-!
# File trees

A file tree holds directories and files at places.  A place is the list of names that lead to it
from the root; a path is followed to a place, name by name, and may be refused on the way.  What
stands in a tree stands in a directory, under a name that an entry can have.

* `Name.IsProper` : the names that an entry can have.
* `FileTree.Admits`, `FileTree.set`, `FileTree.clear` : where something can stand, putting it there
  and taking it away.
* `FileTree.resolve` : the place to which a path leads, and what stands there.
* `FileTree.read`, `write`, `rename`, `remove` : the operations on files.
* `FileTree.filesBelow` : all files below a place.
* `FileTree.filesSince`, `FileTree.changesSince` : the files that are new or different.
-/

namespace ClassWeave

/-- The names that lead to something from the root. -/
abbrev Place := List String

/-- What stands at a place. -/
inductive Entry where
  | directory
  | file (data : Bytes)
  deriving DecidableEq, Repr

/-- The longest name, in bytes. -/
def Name.limit : Nat := 255

/-- A name that an entry of a directory can have. -/
structure Name.IsProper (name : String) : Prop where
  /-- There is no slash in it. -/
  slash : '/' ∉ name.toList
  /-- There is no zero in it. -/
  zero : '\x00' ∉ name.toList
  /-- It leads somewhere. -/
  idle : Name.isIdle name = false
  /-- It does not lead upwards. -/
  up : name ≠ ".."
  /-- It is not too long. -/
  size : name.utf8ByteSize ≤ Name.limit

instance (name : String) : Decidable (Name.IsProper name) :=
  decidable_of_iff ('/' ∉ name.toList ∧ '\x00' ∉ name.toList ∧ Name.isIdle name = false ∧
    name ≠ ".." ∧ name.utf8ByteSize ≤ Name.limit)
    ⟨fun h => ⟨h.1, h.2.1, h.2.2.1, h.2.2.2.1, h.2.2.2.2⟩,
      fun h => ⟨h.slash, h.zero, h.idle, h.up, h.size⟩⟩

/-- Directories and files. -/
structure FileTree where
  /-- What stands at the places other than the root. -/
  entries : FiniteMap Place Entry := .empty
  /-- Where relative paths start. -/
  here : Place := []
  /-- The names of a place at which something stands are proper. -/
  proper : ∀ e ∈ entries.entries, ∀ name ∈ e.1, Name.IsProper name := by decide
  /-- It stands in a directory, or at the root. -/
  parent : ∀ e ∈ entries.entries, e.1.dropLast = [] ∨
    entries.get? e.1.dropLast = some .directory := by decide
  deriving DecidableEq, Repr

namespace FileTree

/-- The longest path, in bytes. -/
def pathLimit : Nat := 4095

variable (t : FileTree)

/-- What stands at the place `place`; the root is a directory. -/
def entry? (place : Place) : Option Entry :=
  if place = [] then some .directory else t.entries.get? place

/-- The entry `entry` can stand at the place `place`. -/
structure Admits (place : Place) (entry : Entry) : Prop where
  /-- It is not the root. -/
  ne : place ≠ []
  /-- The names are proper. -/
  proper : ∀ name ∈ place, Name.IsProper name
  /-- It is in a directory. -/
  parent : t.entry? place.dropLast = some .directory
  /-- No file takes the place of a directory. -/
  free : t.entry? place = some .directory → entry = .directory

instance (place : Place) (entry : Entry) : Decidable (t.Admits place entry) :=
  decidable_of_iff (place ≠ [] ∧ (∀ name ∈ place, Name.IsProper name) ∧
    t.entry? place.dropLast = some .directory ∧
      (t.entry? place = some .directory → entry = .directory))
    ⟨fun h => ⟨h.1, h.2.1, h.2.2.1, h.2.2.2⟩, fun h => ⟨h.ne, h.proper, h.parent, h.free⟩⟩

section

variable {t} {place : Place} {entry : Entry}

theorem entry?_of_ne (h : place ≠ []) : t.entry? place = t.entries.get? place := if_neg h

theorem proper_of_get? (h : t.entries.get? place = some entry) :
    ∀ name ∈ place, Name.IsProper name :=
  t.proper _ (FiniteMap.mem_entries.2 h)

theorem parent_of_get? (h : t.entries.get? place = some entry) :
    t.entry? place.dropLast = some .directory := by
  unfold entry?
  split
  · rfl
  · rename_i hroot
    exact (t.parent _ (FiniteMap.mem_entries.2 h)).resolve_left hroot

/-- A directory stays when something is put that the tree admits. -/
theorem Admits.directory (h : t.Admits place entry) {other : Place}
    (hdir : t.entry? other = some .directory) :
    other = [] ∨ (t.entries.insert place entry).get? other = some .directory := by
  by_cases hroot : other = []
  · exact .inl hroot
  · rw [FiniteMap.get?_insert]
    split
    · rename_i heq
      rw [h.free (heq ▸ hdir)]
      exact .inr rfl
    · exact .inr (entry?_of_ne hroot ▸ hdir)

end

/-- The tree with `entry` at the place `place`, if it can stand there. -/
def set (place : Place) (entry : Entry) : FileTree :=
  if h : t.Admits place entry then
    { t with
      entries := t.entries.insert place entry
      proper := by
        intro e he
        have hget := FiniteMap.mem_entries.1 he
        rw [FiniteMap.get?_insert] at hget
        split at hget
        · rename_i heq
          exact heq ▸ h.proper
        · exact proper_of_get? hget
      parent := by
        intro e he
        have hget := FiniteMap.mem_entries.1 he
        rw [FiniteMap.get?_insert] at hget
        split at hget
        · rename_i heq
          exact heq ▸ h.directory h.parent
        · exact h.directory (parent_of_get? hget) }
  else t

/-- The tree with nothing at the place `place`, unless that is a directory. -/
def clear (place : Place) : FileTree :=
  if h : t.entry? place = some .directory then t
  else
    { t with
      entries := t.entries.erase place
      proper := by
        intro e he
        have hget := FiniteMap.mem_entries.1 he
        rw [FiniteMap.get?_erase] at hget
        split at hget
        · cases hget
        · exact proper_of_get? hget
      parent := by
        intro e he
        have hget := FiniteMap.mem_entries.1 he
        rw [FiniteMap.get?_erase] at hget
        split at hget
        · cases hget
        · by_cases hroot : e.1.dropLast = []
          · exact .inl hroot
          · have hdir := parent_of_get? hget
            have hne : e.1.dropLast ≠ place := fun heq => h (heq ▸ hdir)
            rw [FiniteMap.get?_erase, if_neg hne]
            exact .inr (entry?_of_ne hroot ▸ hdir) }

/-! ### Building a tree -/

/-- The places below the root on the way to `place`, which is included. -/
def placesTo (place : Place) : List Place :=
  (List.range place.length).map fun n => place.take (n + 1)

/-- The tree with a directory at `place`, and with those that lead to it. -/
def addDirectory (place : Place) : FileTree :=
  (placesTo place).foldl (fun t p => t.set p .directory) t

/-- The tree with a file at `place`, and with the directories that lead to it. -/
def addFile (place : Place) (data : Bytes) : FileTree :=
  (t.addDirectory place.dropLast).set place (.file data)

/-- The place that `path` names, whatever stands there. -/
def placeOf (path : Path) : Place :=
  let start := if path.isAbsolute then [] else t.here
  path.segments.foldl (fun place name =>
    if Name.isIdle name then place
    else if name = ".." then place.dropLast
    else place ++ [name]) start

/-! ### Following a path -/

/-- The place to which `name` leads from `place`, where a directory has to stand. -/
def child (place : Place) (name : String) : Except StorageFault Place :=
  match t.entry? place with
  | none => .error .notFound
  | some (.file _) => .error .notDirectory
  | some .directory =>
    if Name.isIdle name then .ok place
    else if name = ".." then .ok place.dropLast
    else if Name.limit < name.utf8ByteSize then .error .nameTooLong
    else .ok (place ++ [name])

/-- The place to which `names` lead from `place`; something has to stand at each place on the way,
the last one excepted. -/
def follow (place : Place) (names : List String) : Except StorageFault Place :=
  names.foldlM t.child place

/-- Refuses a `path` that cannot lead anywhere: one with a zero, one without text, or one that is
too long. -/
def checkPath (path : Path) : Except StorageFault Unit := do
  if path.text.toList.contains '\x00' then throw .zeroInPath
  if path.text = "" then throw .notFound
  if pathLimit < path.text.utf8ByteSize then throw .nameTooLong

/-- The place that `path` leads to.  Something need not stand there. -/
def locate (path : Path) : Except StorageFault Place := do
  checkPath path
  t.follow (if path.isAbsolute then [] else t.here) path.segments

/-- The place that `path` leads to, and what stands there. -/
def resolve (path : Path) : Except StorageFault (Place × Entry) := do
  let place ← t.locate path
  match t.entry? place with
  | some entry => return (place, entry)
  | none => throw .notFound

/-- Whether `path` ends in the name of a file. -/
def endsInName (path : Path) : Bool :=
  match path.segments.getLast? with
  | some name => !Name.isIdle name && name != ".."
  | none => false

/-! ### Files -/

/-- The bytes of the file at `path`. -/
def read (path : Path) : Except StorageFault Bytes := do
  match ← t.resolve path with
  | (_, .file data) => return data
  | (_, .directory) => throw .isDirectory

/-- Makes `data` the bytes of the file at `path`, which is created if it does not exist. -/
def write (path : Path) (data : Bytes) : Except StorageFault FileTree := do
  let place ← t.locate path
  if !endsInName path || t.entry? place = some .directory then throw .isDirectory
  return t.set place (.file data)

/-- Moves the file at `source` to `target`, where it replaces a file but no directory. -/
def rename (source target : Path) : Except StorageFault FileTree := do
  let start ← t.locate source
  let goal ← t.locate target
  if !endsInName target then throw .busy
  match t.entry? start with
  | some (.file data) =>
    if t.entry? goal = some .directory then throw .isDirectory
    return (t.clear start).set goal (.file data)
  | some .directory => throw .isDirectory
  | none => throw .notFound

/-- The tree without the file at `path`, if there is one. -/
def remove (path : Path) : FileTree :=
  match t.resolve path with
  | .ok (place, .file _) => t.clear place
  | _ => t

/-- The names that lead from the first place to the second, if that is below it. -/
def namesFrom? : Place → Place → Option (List String)
  | [], names => if names = [] then none else some names
  | n :: start, m :: place => if n = m then namesFrom? start place else none
  | _ :: _, [] => none

/-- All files below `place`, with the names that lead to them from there. -/
def filesBelow (place : Place) : List (List String × Bytes) :=
  t.entries.entries.filterMap fun (p, entry) =>
    match namesFrom? place p, entry with
    | some names, .file data => some (names, data)
    | _, _ => none

/-- The `files` as their paths and bytes, in the order of the paths. -/
def listing (files : List (List String × Bytes)) : List (String × Bytes) :=
  (files.map fun (names, data) => (String.intercalate "/" names, data)).mergeSort
    fun a b => !(b.1 < a.1)

/-- The files below the current place. -/
def files : List (String × Bytes) := listing (t.filesBelow t.here)

/-- The places of the files that are new or different from those of `before`. -/
def filesSince (before : FileTree) : List (Place × Bytes) :=
  (t.filesBelow []).filter fun (place, data) => before.entry? place ≠ some (.file data)

/-- The files below the current place that are new or different from those of `before`. -/
def changesSince (before : FileTree) : List (String × Bytes) :=
  listing ((t.filesSince before).filterMap fun (place, data) =>
    (namesFrom? t.here place).map (·, data))

end FileTree

end ClassWeave
