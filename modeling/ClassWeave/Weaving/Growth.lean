import ClassWeave.Body.Emission
import ClassWeave.ClassFile.Basic

/-!
# What a unit gains

Weaving appends constants, fields and methods to a unit.  Constants go straight into the pool;
`Growth` holds the members, so that they can be put at the end of the unit in one go.

* `Growing` : computations that gain something and may fail; what was gained before a failure stays.
* `Growing.addField`, `Growing.addMethod` : a further field or method, `add_field` and `add_method`.
* `Growth.appendTo` : the unit with what it gained.
-/

namespace ClassWeave

/-- What a unit gains. -/
structure Growth where
  /-- Whether methods with branches need frames for the verifier. -/
  needsFrames : Bool
  /-- The new fields, the last in front. -/
  fields : List Member := []
  /-- The new methods, the last in front. -/
  methods : List Member := []
  deriving DecidableEq, Repr

namespace Growth

/-- Nothing gained yet by the unit `u`. -/
def start (u : ClassFile) : Growth := { needsFrames := u.needsFrames }

/-- The unit `u` with the new members at its end. -/
def appendTo (g : Growth) (u : ClassFile) : ClassFile :=
  { u with
    fields := u.fields ++ g.fields.reverse
    methods := u.methods ++ g.methods.reverse }

end Growth

/-- Computations that gain something and can fail; a failure keeps what was gained before it. -/
abbrev Growing := ExceptT Malformation (StateT Growth (StateM ConstantPool))

namespace Growing

/-- Interns the constants of `act`. -/
def interning {α : Type} (act : Interning α) : Growing α := ExceptT.mk (StateT.lift act.run)

/-- Writes a method body by `act`, from an empty one on. -/
def emission {α : Type} (act : Emission α) : Growing (α × Body) := interning (act.run {})

/-- A further field `name` of type `descriptor`. -/
def addField (access : Access) (name descriptor : String) (attributes : List Attribute) :
    Growing Unit := do
  let n ← interning (.utf8 name)
  let d ← interning (.utf8 descriptor)
  let f : Member := { access, name := n, descriptor := d, attributes }
  modifyThe Growth fun g => { g with fields := f :: g.fields }

/-- The frames of a method as an attribute, if it has any and the version of the unit asks for
them. -/
def framesAttribute (frames? : Option Bytes) : Growing (List Attribute) := do
  match frames? with
  | some frames =>
    if (← getThe Growth).needsFrames then
      let name ← interning (.utf8 Attribute.stackMapName)
      return [.raw name frames]
    else return []
  | none => return []

/-- A further method `name` of type `descriptor`, with its body and its frames. -/
def addMethod (access : Access) (name descriptor : String) (body : Body) (maxLocals : UInt16)
    (frames? : Option Bytes) : Growing Unit := do
  let frames ← framesAttribute frames?
  let codeName ← interning (.utf8 Attribute.codeName)
  let n ← interning (.utf8 name)
  let d ← interning (.utf8 descriptor)
  let code : Code := { body.toCode maxLocals with attributes := frames }
  let m : Member := { access, name := n, descriptor := d, attributes := [.code codeName code] }
  modifyThe Growth fun g => { g with methods := m :: g.methods }

end Growing

end ClassWeave
