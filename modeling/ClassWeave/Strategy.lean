/-!
# Strategies

A unit is woven by one of two strategies, or left alone.  Which one is declared by a marker
annotation on the class; a third marker records that a unit has been woven.  The strategies are the
values of `WeaverType`.

* `Strategy.name`, `Strategy.ofName?` : the name that the woven marker records.
* `Strategy.marker?` : the annotation that declares a strategy, `marker`.
* `Strategy.label` : the name in diagnostics, `label`.
-/

namespace ClassWeave

/-- How a unit is woven. -/
inductive Strategy where
  /-- Left alone. -/
  | none
  /-- Instances are reset and used again. -/
  | pooled
  /-- Fields live in one buffer that all instances share, by slot. -/
  | packed
  deriving DecidableEq, Repr

namespace Strategy

/-- The name that reports and the woven marker use. -/
def name : Strategy → String
  | none => "NONE"
  | pooled => "POOLED"
  | packed => "PACKED"

/-- The strategy whose name is `text`. -/
def ofName? (text : String) : Option Strategy :=
  [none, pooled, packed].find? fun s => s.name == text

/-- The name that diagnostics use. -/
def label : Strategy → String
  | none => "none"
  | pooled => "pooled"
  | packed => "packed"

/-- The type of the annotation that declares the strategy. -/
def marker? : Strategy → Option String
  | none => Option.none
  | pooled => some "Lcom/artemis/annotations/PooledWeaver;"
  | packed => some "Lcom/artemis/annotations/PackedWeaver;"

end Strategy

/-- The type of the annotation that every woven unit carries. -/
def wovenMarker : String := "Lcom/artemis/annotations/internal/Transmuted;"

/-! ### Base classes -/

/-- The base class of plain components. -/
def plainBase : String := "com/artemis/Component"

/-- The base class of pooled components. -/
def pooledBase : String := "com/artemis/PooledComponent"

/-- The base class of packed components. -/
def packedBase : String := "com/artemis/PackedComponent"

end ClassWeave
