import ClassWeave.Weaving.TypeIndex

/-!
# Whether a strategy can be applied

* `ValueKind.isPackable` : which values can live in a buffer, `is_packable`.
* `ClassFile.validate` : a pooled unit can be constructed without arguments; a packed unit does not
  extend the packed base class yet, and every instance field of it is of fixed size; `validate`.
-/

namespace ClassWeave

/-- Values of the kind can live in a buffer of the class `owner`: those of fixed size, and objects
of another type that is packed by `index`, which are stored as the number of their slot. -/
def ValueKind.isPackable (index : TypeIndex) (owner : String) : ValueKind → Bool
  | .object name => name != owner && index.isPacked name
  | .array _ => false
  | _ => true

/-- Checks that the strategy `s` can be applied to the unit `u`. -/
def ClassFile.validate (u : ClassFile) (s : Strategy) (index : TypeIndex) : Except Error Unit := do
  let name ← u.name
  match s with
  | .none => return
  | .pooled =>
    let constructor? ← u.findMethod? Scan.constructorName Scan.plainDescriptor
    if constructor?.isNone then throw (.noDefaultConstructor name)
  | .packed =>
    let superName? ← u.superName?
    if superName? = some packedBase then throw (.alreadyPacked name)
    let fields ← u.fieldsView
    match fields.find? fun f => !f.isStatic && !f.kind.isPackable index name with
    | some f => throw (.unpackableField f.name)
    | none => return

end ClassWeave
