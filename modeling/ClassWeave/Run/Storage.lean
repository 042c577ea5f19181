import ClassWeave.Error
import ClassWeave.FiniteMap

/-!
# Where units are stored

A run only lists, reads and writes named units, and does not care where they are.

* `Storage` : the three operations on a store of any kind, those of `SourceSet`, and whether it asks
  to stop.
* `MemoryStore` : units in memory, which remembers what was written; the `MemorySource`.
* `MemoryStore.storage` : its operations, with a flag that asks to stop.
-/

namespace ClassWeave

/-- The operations on a store `σ`. -/
structure Storage (σ : Type) where
  /-- The names of all units. -/
  names : σ → Except Error (List String)
  /-- The bytes of a unit. -/
  read : String → σ → Except Error Bytes
  /-- Replaces the bytes of a unit. -/
  write : String → Bytes → σ → Except Error Unit × σ
  /-- Whether the run is to be cancelled. -/
  isCancelled : σ → Bool

/-- Units in memory. -/
structure MemoryStore where
  /-- The bytes of the units. -/
  units : FiniteMap String Bytes := .empty
  /-- The names of the units that were written by a run. -/
  written : List String := []
  deriving DecidableEq, Repr

namespace MemoryStore

variable (s : MemoryStore)

/-- Adds or replaces the unit `name` without counting it as written. -/
def insert (name : String) (data : Bytes) : MemoryStore :=
  { s with units := s.units.insert name data }

/-- The bytes of the unit `name`, if there is one. -/
def get? (name : String) : Option Bytes := s.units.get? name

/-- Whether the unit `name` was written. -/
def wasWritten (name : String) : Bool := s.written.contains name

/-- The number of units. -/
def size : Nat := s.units.size

/-- No units at all. -/
def isEmpty : Bool := s.units.isEmpty

/-- The names of all units, sorted. -/
def names : List String := s.units.keys.mergeSort fun a b => !(b < a)

/-- The bytes of the unit `name`, which has to be there. -/
def read (name : String) : Except Error Bytes :=
  match s.get? name with
  | some data => .ok data
  | none => .error (.storage (.described s!"no unit named {name}"))

/-- Makes `data` the bytes of the unit `name`, and remembers it. -/
def write (name : String) (data : Bytes) : MemoryStore :=
  { s.insert name data with
    written := if s.wasWritten name then s.written else name :: s.written }

/-- The operations on units in memory, while the flag that cancels a run is as given. -/
def storage (isCancelled : Bool) : Storage MemoryStore where
  names s := .ok s.names
  read name s := s.read name
  write name data s := (.ok (), s.write name data)
  isCancelled _ := isCancelled

end MemoryStore

end ClassWeave
