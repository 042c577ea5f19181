import ClassWeave.Descriptor
import ClassWeave.Member

/-!
# Class files

The model of one compiled unit (JVMS 4.1), and the questions that weaving asks of it.  A question
fails when a slot that it has to follow leads nowhere.

* `ClassFile` : versions, pool, access flags, slots of names, members and attributes.
* `ClassFile.name`, `superName?`, `interfaceNames` : the names that the slots lead to, `name`,
  `super_name` and `interface_names`.
* `ClassFile.annotations`, `findAnnotation?` : class annotations, `annotations` and
  `find_annotation`.
* `ClassFile.fieldsView`, `findMethod?`, `publicSignatures` : members by their texts, `fields_view`,
  `find_method` and `public_method_signatures`.
* `ClassFile.needsFrames` : whether methods with branches need frames, `requires_stack_maps`.
-/

namespace ClassWeave

/-- One compiled unit. -/
structure ClassFile where
  /-- The minor version. -/
  minor : UInt16
  /-- The major version. -/
  major : UInt16
  /-- The constants. -/
  pool : ConstantPool
  /-- The access flags of the class. -/
  access : Access
  /-- The slot of the class itself. -/
  thisClass : UInt16
  /-- The slot of the superclass, or 0. -/
  superClass : UInt16
  /-- The slots of the interfaces. -/
  interfaces : List UInt16
  /-- The fields in the order of their declaration. -/
  fields : List Member
  /-- The methods in the order of their declaration. -/
  methods : List Member
  /-- The attributes of the class. -/
  attributes : List Attribute
  deriving DecidableEq, Repr

/-- A field by its texts. -/
structure Field where
  /-- The name. -/
  name : String
  /-- The kind of value that it holds. -/
  kind : ValueKind
  /-- Whether the field belongs to the class and not to its objects. -/
  isStatic : Bool
  /-- Where it lies in a packed slot, once that is known. -/
  offset? : Option Nat := none
  deriving DecidableEq, Repr

namespace ClassFile

variable (u : ClassFile)

/-- The first major version whose methods need frames for the verifier. -/
def firstFramedMajor : UInt16 := 50

/-- Whether methods with branches need frames for the verifier. -/
def needsFrames : Bool := firstFramedMajor ≤ u.major

/-- The internal name of the class. -/
def name : Except Malformation String := u.pool.className u.thisClass

/-- The internal name of the superclass; only the root of all classes has none. -/
def superName? : Except Malformation (Option String) :=
  if u.superClass = 0 then .ok none else some <$> u.pool.className u.superClass

/-- The internal names of the interfaces. -/
def interfaceNames : Except Malformation (List String) := u.interfaces.mapM u.pool.className

/-! ### Annotations -/

/-- The annotations of attributes in a row, each with whether it is visible when the program runs.
The names of the attributes are texts of `pool`. -/
def annotationsOf (pool : ConstantPool) : List Attribute →
    Except Malformation (List (AnnotationInfo × Bool))
  | [] => .ok []
  | .annotations name list :: rest => do
    let visible := (← pool.utf8 name) = Attribute.visibleName
    return list.map (·, decide visible) ++ (← annotationsOf pool rest)
  | _ :: rest => annotationsOf pool rest

/-- The class annotations, each with whether it is visible when the program runs. -/
def annotations : Except Malformation (List (AnnotationInfo × Bool)) :=
  annotationsOf u.pool u.attributes

/-- The first of the annotations whose type has the `descriptor`.  The types of those before it have
to be texts of `pool`. -/
def firstOfType? (pool : ConstantPool) (descriptor : String) :
    List (AnnotationInfo × Bool) → Except Malformation (Option AnnotationInfo)
  | [] => .ok none
  | (a, _) :: rest => do
    if (← AnnotationInfo.typeDescriptor pool a) = descriptor then return some a
    else firstOfType? pool descriptor rest

/-- The first class annotation whose type has the `descriptor`.  All names of attributes with
annotations are looked at before the first type. -/
def findAnnotation? (descriptor : String) : Except Malformation (Option AnnotationInfo) := do
  firstOfType? u.pool descriptor (← u.annotations)

/-! ### Members -/

/-- The field `m` by its texts. -/
def viewOf (pool : ConstantPool) (m : Member) : Except Malformation Field := do
  let name ← m.nameIn pool
  let kind ← ValueKind.parse (← m.descriptorIn pool)
  return { name, kind, isStatic := !m.isInstance }

/-- The fields by their texts. -/
def fieldsView : Except Malformation (List Field) := u.fields.mapM (viewOf u.pool)

/-- The first of the methods called `name` with the `descriptor`.  A descriptor is only looked at
behind the right name. -/
def firstMethod? (pool : ConstantPool) (name descriptor : String) :
    List Member → Except Malformation (Option Member)
  | [] => .ok none
  | m :: rest => do
    if (← m.nameIn pool) = name then
      if (← m.descriptorIn pool) = descriptor then return some m
    firstMethod? pool name descriptor rest

/-- The first method called `name` with the `descriptor`. -/
def findMethod? (name descriptor : String) : Except Malformation (Option Member) :=
  firstMethod? u.pool name descriptor u.methods

/-- Whether the signature `a` comes before `b` or is `b`, by name and then by descriptor. -/
def signatureLe (a b : String × String) : Bool :=
  a.1 < b.1 || (a.1 == b.1 && (a.2 < b.2 || a.2 == b.2))

/-- A sorted list without repetitions. -/
def withoutRepeats {α : Type} [DecidableEq α] : List α → List α
  | a :: b :: rest => if a = b then withoutRepeats (b :: rest) else a :: withoutRepeats (b :: rest)
  | short => short

/-- The names and descriptors of all public methods, as the sorted set that they are collected
in. -/
def publicSignatures : Except Malformation (List (String × String)) := do
  let signatures ← (u.methods.filter (·.access.has Access.publicFlag)).mapM fun m => do
    return (← m.nameIn u.pool, ← m.descriptorIn u.pool)
  return withoutRepeats (signatures.mergeSort signatureLe)

end ClassFile

end ClassWeave
