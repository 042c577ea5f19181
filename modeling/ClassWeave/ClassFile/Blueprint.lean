import ClassWeave.Body.Emission
import ClassWeave.ClassFile.Basic

/-!
# Blueprints

A class can be described by texts alone: its names, fields, methods and annotations.  Building it
interns every text in a fixed order and yields the class file.

* `Blueprint` : the description, with one function for everything that can be added to it.  It is
  that of `ClassBuilder`.
* `Blueprint.withMethod`, `withDeclaration` : methods with and without a body, `method` and
  `declaration`; `withDefaultConstructor`, `withFieldConstructor`, `withGetter` and `withSetter` add
  methods with a body of a fixed form.
* `Blueprint.build` : the class file of a description, `build`.
-/

namespace ClassWeave

/-- A method to be built. -/
structure MethodPlan where
  /-- The access flags. -/
  access : Access
  /-- The name. -/
  name : String
  /-- The descriptor. -/
  descriptor : String
  /-- The number of local variable slots. -/
  maxLocals : UInt16 := 0
  /-- What writes the body, if there is one. -/
  body? : Option (Emission Unit) := none

/-- A field to be built. -/
structure FieldPlan where
  /-- The access flags. -/
  access : Access
  /-- The name. -/
  name : String
  /-- The descriptor. -/
  descriptor : String

/-- An annotation to be built, whose elements are texts. -/
structure AnnotationPlan where
  /-- The descriptor of the type. -/
  descriptor : String
  /-- Whether it is visible when the program runs. -/
  visible : Bool
  /-- The names and texts of its elements. -/
  elements : List (String × String)

/-- The description of a class. -/
structure Blueprint where
  /-- The internal name. -/
  name : String
  /-- The internal name of the superclass. -/
  superName : String := "java/lang/Object"
  /-- The access flags. -/
  access : Access := Access.publicFlag ||| Access.superFlag
  /-- The major version. -/
  major : UInt16 := 52
  /-- The internal names of the interfaces. -/
  interfaces : Array String := #[]
  /-- The annotations. -/
  annotations : Array AnnotationPlan := #[]
  /-- The fields. -/
  fields : Array FieldPlan := #[]
  /-- The methods. -/
  methods : Array MethodPlan := #[]

namespace Blueprint

variable (p : Blueprint)

/-! ### Describing -/

/-- With the interface `name` as another one. -/
def withInterface (name : String) : Blueprint := { p with interfaces := p.interfaces.push name }

/-- With another annotation, whose type is `descriptor` and whose `elements` are texts. -/
def annotatedWith (descriptor : String) (visible : Bool) (elements : List (String × String)) :
    Blueprint :=
  { p with annotations := p.annotations.push { descriptor, visible, elements } }

/-- With the field `name` of type `descriptor` as another one. -/
def withField (access : Access) (name descriptor : String) : Blueprint :=
  { p with fields := p.fields.push { access, name, descriptor } }

/-- With the method `name` of type `descriptor` as another one; `body` writes its instructions. -/
def withMethod (access : Access) (name descriptor : String) (maxLocals : UInt16)
    (body : Emission Unit) : Blueprint :=
  { p with methods := p.methods.push { access, name, descriptor, maxLocals, body? := some body } }

/-- With the method `name` of type `descriptor`, which has no body. -/
def withDeclaration (access : Access) (name descriptor : String) : Blueprint :=
  { p with methods := p.methods.push { access, name, descriptor } }

/-- The descriptor of a method that takes one value, of type `descriptor`, and returns nothing. -/
def takingOne (descriptor : String) : String := "(" ++ descriptor ++ ")V"

/-- The local variable slots of such a method of an object. -/
def localsTakingOne (descriptor : String) : UInt16 :=
  if descriptor = "J" ∨ descriptor = "D" then 3 else 2

/-- Calls a constructor that takes nothing on the object itself; `init` is its slot. -/
def callParent (init : UInt16) : Emission Unit := do
  Emission.this
  Emission.op16 Opcode.invokeSpecial init (-1)

/-- Assigns the parameter, a value of `kind`, to the field in the slot `target`, and returns. -/
def assignParameter (target : UInt16) (kind : ValueKind) : Emission Unit := do
  Emission.this
  Emission.emit (·.loadParameter kind)
  Emission.op16 Opcode.putField target (-1 - kind.slots)
  Emission.emit (·.returnValue none)

/-- A constructor that takes nothing and only calls that of `parent`. -/
def plainConstructorBody (parent : String) : Emission Unit := do
  let init ← Interning.methodRef parent "<init>" "()V"
  callParent init
  Emission.emit (·.returnValue none)

/-- A constructor that calls that of `parent` and assigns the field of `owner` what it takes. -/
def fieldConstructorBody (owner parent field descriptor : String) : Emission Unit := do
  let kind ← ValueKind.parse descriptor
  let init ← Interning.methodRef parent "<init>" "()V"
  let target ← Interning.fieldRef owner field descriptor
  callParent init
  assignParameter target kind

/-- A method that returns the value of the `field` of `owner`, which is of type `descriptor`. -/
def getterBody (owner field descriptor : String) : Emission Unit := do
  let kind ← ValueKind.parse descriptor
  let source ← Interning.fieldRef owner field descriptor
  Emission.this
  Emission.op16 Opcode.getField source (kind.slots - 1)
  Emission.emit (·.returnValue (some kind))

/-- A method that assigns the `field` of `owner`, which is of type `descriptor`. -/
def setterBody (owner field descriptor : String) : Emission Unit := do
  let kind ← ValueKind.parse descriptor
  let target ← Interning.fieldRef owner field descriptor
  assignParameter target kind

/-- With a public constructor that takes nothing. -/
def withDefaultConstructor : Blueprint :=
  p.withMethod Access.publicFlag "<init>" "()V" 1 (plainConstructorBody p.superName)

/-- With a public constructor that takes the value of the `field`. -/
def withFieldConstructor (field descriptor : String) : Blueprint :=
  p.withMethod Access.publicFlag "<init>" (takingOne descriptor) (localsTakingOne descriptor)
    (fieldConstructorBody p.name p.superName field descriptor)

/-- With a public method `name` that returns the value of the `field`. -/
def withGetter (name field descriptor : String) : Blueprint :=
  p.withMethod Access.publicFlag name ("()" ++ descriptor) 1 (getterBody p.name field descriptor)

/-- With a public method `name` that assigns the `field`. -/
def withSetter (name field descriptor : String) : Blueprint :=
  p.withMethod Access.publicFlag name (takingOne descriptor) (localsTakingOne descriptor)
    (setterBody p.name field descriptor)

/-! ### Building -/

/-- The field of the plan `f`, whose descriptor has to denote a kind of value. -/
def buildField (f : FieldPlan) : Interning Member := do
  let _ ← ValueKind.parse f.descriptor
  let name ← Interning.utf8 f.name
  let descriptor ← Interning.utf8 f.descriptor
  return { access := f.access, name, descriptor, attributes := [] }

/-- The method of the plan `m`: its body first, then its name and descriptor.  The slot `codeName`
is that of the name of method bodies. -/
def buildMethod (codeName : UInt16) (m : MethodPlan) : Interning Member := do
  let attributes ← match m.body? with
    | some body => do
      let (_, b) ← body.run {}
      pure [Attribute.code codeName (b.toCode m.maxLocals)]
    | none => pure []
  let name ← Interning.utf8 m.name
  let descriptor ← Interning.utf8 m.descriptor
  return { access := m.access, name, descriptor, attributes }

/-- The annotation of the plan `a`, with the slot of the name of the attribute that it belongs
to. -/
def buildAnnotated (a : AnnotationPlan) : Interning (UInt16 × AnnotationInfo) := do
  let built ← AnnotationInfo.withStrings a.descriptor a.elements
  let name ← Interning.utf8 (if a.visible then Attribute.visibleName else Attribute.invisibleName)
  return (name, built)

/-- The `annotations` gathered into one attribute for each name, in the order in which the names
come up first. -/
def gather (annotations : List (UInt16 × AnnotationInfo)) : List Attribute :=
  (annotations.map Prod.fst).eraseDups.map fun name =>
    .annotations name ((annotations.filter (·.1 == name)).map Prod.snd)

/-- Interns all that the class refers to and puts it together, but for the pool. -/
def assemble : Interning ClassFile := do
  let thisClass ← Interning.classRef p.name
  let superClass ← Interning.classRef p.superName
  let interfaces ← p.interfaces.toList.mapM Interning.classRef
  let fields ← p.fields.toList.mapM buildField
  let codeName ← Interning.utf8 Attribute.codeName
  let methods ← p.methods.toList.mapM (buildMethod codeName)
  let annotations ← p.annotations.toList.mapM buildAnnotated
  return { minor := 0, major := p.major, pool := .empty, access := p.access, thisClass, superClass,
           interfaces, fields, methods, attributes := gather annotations }

/-- The class file of the description, in a pool with nothing else in it. -/
def build : Except Malformation ClassFile :=
  match p.assemble.run ConstantPool.empty with
  | (.ok u, pool) => .ok { u with pool }
  | (.error cause, _) => .error cause

end Blueprint

end ClassWeave
