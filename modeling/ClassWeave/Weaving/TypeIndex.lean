import ClassWeave.FiniteMap
import ClassWeave.Weaving.Scan

/-!
# The index of all units

Which types there are in a set of units, and which strategy each declares.  Later entries replace
earlier ones of the same name.

* `TypeIndex.isPacked` : the type can stand in a packed buffer, `is_packed`.
* `TypeIndex.ofUnits` : the index of given units, `from_units`.
-/

namespace ClassWeave

/-- The declared strategies of types by name. -/
abbrev TypeIndex := FiniteMap String Strategy

namespace TypeIndex

variable (index : TypeIndex)

/-- Whether the type `name` is among the units and declared packed. -/
def isPacked (name : String) : Bool := index.get? name == some .packed

/-- The index of `units`, each with the strategy that it declares. -/
def ofUnits (units : List ClassFile) : Except Error TypeIndex :=
  units.foldlM (fun index u => do
    let s ← u.scan
    return index.insert s.name s.declared) .empty

end TypeIndex

end ClassWeave
