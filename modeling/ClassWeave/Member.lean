import ClassWeave.Access
import ClassWeave.Attribute

/-!
# Fields and methods

Fields and methods (JVMS 4.5, 4.6) have one form: access flags, a name, a descriptor and attributes.
So one structure `Member` models both `FieldInfo` and `MethodInfo`.

* `Member.reader`, `Member.write` : a field or method as bytes, `read` and `write` of both.
* `Member.nameIn`, `Member.descriptorIn` : what its slots lead to, `name` and `descriptor`.
* `Member.isInstance`, `Member.code?` : `is_instance` of a field, and `code` of a method.
-/

namespace ClassWeave

/-- A field or method. -/
structure Member where
  /-- The access flags. -/
  access : Access
  /-- The slot of the name. -/
  name : UInt16
  /-- The slot of the descriptor. -/
  descriptor : UInt16
  /-- The attributes. -/
  attributes : List Attribute
  deriving DecidableEq, Repr

namespace Member

/-- Reads a field or method; see `Attribute.reader` for `pool` and `depth`. -/
def reader (pool : ConstantPool) (depth : Nat) : Reader Member := do
  let access ← Reader.u16
  let name ← Reader.u16
  let descriptor ← Reader.u16
  let attributes ← Attribute.tableReader pool depth
  return { access, name, descriptor, attributes }

/-- The bytes of a field or method. -/
def write (m : Member) : Except Malformation Bytes := do
  let table ← Attribute.writeTable m.attributes
  return bytes16 m.access ++ (bytes16 m.name ++ (bytes16 m.descriptor ++ table))

/-- The name of `m`, a text of `pool`. -/
def nameIn (pool : ConstantPool) (m : Member) : Except Malformation String := pool.utf8 m.name

/-- The descriptor of `m`, a text of `pool`. -/
def descriptorIn (pool : ConstantPool) (m : Member) : Except Malformation String :=
  pool.utf8 m.descriptor

/-- Whether every object has the member for itself: it is not declared static. -/
def isInstance (m : Member) : Bool := !m.access.has Access.staticFlag

/-- The body of a method. -/
def code? (m : Member) : Option Code := Attribute.code? m.attributes

/-- A method with its body edited by `f`. -/
def mapCode (f : Code → Code) (m : Member) : Member :=
  { m with attributes := Attribute.mapCode f m.attributes }

end Member

end ClassWeave
