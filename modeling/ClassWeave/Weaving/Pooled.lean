import ClassWeave.Weaving.Edit
import ClassWeave.Weaving.Scan

/-!
# Pooled components

The instances of a pooled component are reset and used again.  A pooled unit gets a `reset` that
puts every field that can be assigned back to its default value, and moves from the plain to the
pooled base class.  A unit that has a `reset` of its own keeps it.

* `Pooled.resetTargets` : the fields that a reset assigns.
* `Pooled.injectReset` : the method, `inject_reset`.
* `Pooled.apply` : the whole strategy, `apply`.
-/

namespace ClassWeave

namespace Pooled

/-- The names and descriptors of the instance fields that are not final, texts of `pool`. -/
def resetTargets (pool : ConstantPool) :
    List Member → Except Malformation (List (String × String))
  | [] => .ok []
  | f :: rest => do
    if f.isInstance then
      let name ← f.nameIn pool
      if f.access.has Access.finalFlag then resetTargets pool rest
      else
        let descriptor ← f.descriptorIn pool
        return (name, descriptor) :: (← resetTargets pool rest)
    else resetTargets pool rest

/-- Assigns the field `name` of `owner`, which is of type `descriptor`, its default value. -/
def resetField (owner name descriptor : String) : Emission Unit := do
  let kind ← ValueKind.parse descriptor
  let target ← Interning.fieldRef owner name descriptor
  Emission.this
  Emission.emit (·.pushDefault kind)
  Emission.op16 Opcode.putField target (-1 - kind.slots)

/-- The body of the reset of the class `owner`: the fields of `targets` in turn. -/
def resetBody (owner : String) (targets : List (String × String)) : Emission Unit := do
  targets.forM fun (name, descriptor) => resetField owner name descriptor
  Emission.emit (·.returnValue none)

/-- Appends the reset to the class `owner`. -/
def injectReset (owner : String) : Edit Unit := do
  let targets ← Edit.ask fun u => resetTargets u.pool u.fields
  Edit.grow do
    let (_, body) ← Growing.emission (resetBody owner targets)
    Growing.addMethod Access.protectedFlag Scan.resetName Scan.plainDescriptor body 1 none

/-- Applies the pooled strategy. -/
def apply : Edit Unit := do
  let owner ← Edit.ask ClassFile.name
  let reset? ← Edit.ask (·.findMethod? Scan.resetName Scan.plainDescriptor)
  if reset?.isNone then injectReset owner
  Edit.reparent plainBase pooledBase

end Pooled

end ClassWeave
