import ClassWeave.Malformation
import ClassWeave.Strategy

/-!
# Errors

What can go wrong with one unit, or with a whole run.  An error is a cause with its circumstances;
`Error.message` words it, and `Error.kind` says which closed class of errors it belongs to, the
`ErrorKind` by whose `name` reports and requests refer to it.
-/

namespace ClassWeave

/-- How a woven unit differs from what its marker records. -/
inductive Drift where
  /-- It declares another strategy than it was woven by. -/
  | strategy (declared recorded : Strategy)
  /-- Its field table has another fingerprint. -/
  | fieldTable (recorded current : String)
  /-- A difference given in words. -/
  | described (text : String)
  deriving DecidableEq, Repr

/-- The wording of a difference. -/
def Drift.message : Drift → String
  | strategy declared recorded => s!"declared {declared.label} but woven as {recorded.label}"
  | fieldTable recorded current => s!"field table changed since weaving ({recorded} != {current})"
  | described text => text

/-- Why storage refused to be read or written. -/
inductive StorageFault where
  /-- A path leads nowhere. -/
  | notFound
  /-- A path leads through something that is no directory. -/
  | notDirectory
  /-- A directory stands where a file is wanted. -/
  | isDirectory
  /-- Something that is in use would have to be replaced. -/
  | busy
  /-- A name or a whole path is too long. -/
  | nameTooLong
  /-- A path holds a zero character. -/
  | zeroInPath
  /-- A fault given in words. -/
  | described (text : String)
  deriving DecidableEq, Repr

/-- The wording of a storage fault. -/
def StorageFault.message : StorageFault → String
  | notFound => "No such file or directory (os error 2)"
  | notDirectory => "Not a directory (os error 20)"
  | isDirectory => "Is a directory (os error 21)"
  | busy => "Device or resource busy (os error 16)"
  | nameTooLong => "File name too long (os error 36)"
  | zeroInPath => "file name contained an unexpected NUL byte"
  | described text => text

/-- What went wrong. -/
inductive Error where
  /-- The unit is no well-formed class file, or cannot be made one. -/
  | malformed (cause : Malformation)
  /-- The unit declares two strategies. -/
  | ambiguous (first second : String)
  /-- A field of a packed unit cannot live in a buffer. -/
  | unpackableField (name : String)
  /-- A pooled unit cannot be constructed without arguments. -/
  | noDefaultConstructor (name : String)
  /-- A unit to be packed extends the packed base class already. -/
  | alreadyPacked (name : String)
  /-- The unit refers to a type that is neither known from outside nor among the units. -/
  | unresolved (name : String)
  /-- A woven unit has changed since. -/
  | stale (name : String) (drift : Drift)
  /-- The work on a unit broke down, with words if there are any. -/
  | brokeDown (text? : Option String)
  /-- Storage failed. -/
  | storage (fault : StorageFault)
  /-- The root of a directory of class files is something else. -/
  | rootNotDirectory (path : String)
  /-- A run was cancelled before it came to all units. -/
  | cancelled (count : Nat)
  /-- Units of a run failed. -/
  | unitsFailed (names : List String)
  /-- An error given in words. -/
  | described (text : String)
  deriving DecidableEq, Repr

/-- The closed classes of errors. -/
inductive ErrorKind where
  | malformed
  | ambiguous
  | unpackableField
  | noDefaultConstructor
  | alreadyPacked
  | unresolved
  | stale
  | brokeDown
  | storage
  | other
  deriving DecidableEq, Repr

namespace ErrorKind

/-- All classes. -/
def all : List ErrorKind :=
  [malformed, ambiguous, unpackableField, noDefaultConstructor, alreadyPacked, unresolved, stale,
    brokeDown, storage, other]

/-- The name of a class in reports. -/
def name : ErrorKind → String
  | malformed => "MalformedUnit"
  | ambiguous => "AmbiguousClassification"
  | unpackableField => "UnpackableField"
  | noDefaultConstructor => "MissingDefaultConstructor"
  | alreadyPacked => "AlreadyPacked"
  | unresolved => "UnresolvedReference"
  | stale => "StaleTransform"
  | brokeDown => "PipelinePanic"
  | storage => "Io"
  | other => "Other"

/-- The class of a name. -/
def ofName? (text : String) : Option ErrorKind := all.find? fun k => k.name == text

end ErrorKind

namespace Error

/-- The class that an error belongs to. -/
def kind : Error → ErrorKind
  | malformed _ => .malformed
  | ambiguous _ _ => .ambiguous
  | unpackableField _ => .unpackableField
  | noDefaultConstructor _ => .noDefaultConstructor
  | alreadyPacked _ => .alreadyPacked
  | unresolved _ => .unresolved
  | stale _ _ => .stale
  | brokeDown _ => .brokeDown
  | storage _ => .storage
  | rootNotDirectory _ | cancelled _ | unitsFailed _ | described _ => .other

/-- What is said of a breakdown without words. -/
def unknownBreakdown : String := "unknown panic"

/-- The wording of an error. -/
def message : Error → String
  | malformed cause => s!"Malformed - {cause.message}"
  | ambiguous first second => s!"Conflicting classification markers - {first} and {second}"
  | unpackableField name => s!"Field can not be packed - {name}"
  | noDefaultConstructor name => s!"Pooled type has no default constructor - {name}"
  | alreadyPacked name => s!"Type is already packed - {name}"
  | unresolved name => s!"Unresolved type reference - {name}"
  | stale name drift => s!"Stale transform on {name}: {drift.message}"
  | brokeDown text? => s!"Pipeline panicked - {text?.getD unknownBreakdown}"
  | storage fault => fault.message
  | rootNotDirectory path => s!"{path} is not a directory"
  | cancelled count => s!"weaving cancelled, {count} unit(s) not processed"
  | unitsFailed names =>
    s!"{names.length} unit(s) failed to weave: " ++ String.intercalate ", " names
  | described text => text

end Error

instance : MonadLift (Except Malformation) (Except Error) where
  monadLift := Except.mapError .malformed

end ClassWeave
