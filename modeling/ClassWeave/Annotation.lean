import ClassWeave.Bytes.Reader
import ClassWeave.Pool.Intern

/-!
# Annotations

An annotation (JVMS 4.7.16) has a type and named elements, and an element can hold annotations and
lists of elements again.  Annotations are kept with the slot numbers that they are stored with, so
that those nobody touches are written back as they were.

* `AnnotationOf.reader`, `Element.reader` : the two functions `read`, of an annotation and of a
  value, which call each other.
* `AnnotationInfo.readList`, `AnnotationInfo.writeList` : lists of annotations as bytes, `read_list`
  and `write_list`.
* `AnnotationInfo.element?`, `AnnotationInfo.stringElement?` : an element by name, `element` and
  `string_element`.
* `AnnotationInfo.withStrings` : an annotation whose elements are texts, `with_strings`.
-/

namespace ClassWeave

/-- An annotation whose elements hold `α`s: the slot of its type descriptor, and the slots of the
names of its elements with their values. -/
structure AnnotationOf (α : Type) where
  /-- The slot of the type descriptor. -/
  type : UInt16
  /-- The slots of the element names, with the values. -/
  elements : List (UInt16 × α)
  deriving DecidableEq, Repr

/-- The value of an annotation element. -/
inductive Element where
  /-- A primitive value or a text: the letter of its kind and its slot. -/
  | const (tag : UInt8) (value : UInt16)
  /-- An enum constant: the slots of its type descriptor and of its name. -/
  | enumConst (type name : UInt16)
  /-- A class literal: the slot of its descriptor. -/
  | classLiteral (descriptor : UInt16)
  /-- An annotation inside the annotation. -/
  | nested (inner : AnnotationOf Element)
  /-- A list of values. -/
  | array (values : List Element)
  deriving Repr

/-- An annotation. -/
abbrev AnnotationInfo := AnnotationOf Element

/-! ### Equality -/

mutual

/-- Whether two values are the same, which the nesting keeps from being derived. -/
def Element.same : Element → Element → Bool
  | .const t v, .const t' v' => t == t' && v == v'
  | .enumConst t n, .enumConst t' n' => t == t' && n == n'
  | .classLiteral d, .classLiteral d' => d == d'
  | .nested ⟨t, es⟩, .nested ⟨t', es'⟩ => t == t' && Element.sameNamed es es'
  | .array vs, .array vs' => Element.sameAll vs vs'
  | _, _ => false

/-- Whether two lists of values are the same. -/
def Element.sameAll : List Element → List Element → Bool
  | [], [] => true
  | v :: vs, v' :: vs' => v.same v' && Element.sameAll vs vs'
  | _, _ => false

/-- Whether two lists of named values are the same. -/
def Element.sameNamed : List (UInt16 × Element) → List (UInt16 × Element) → Bool
  | [], [] => true
  | (n, v) :: es, (n', v') :: es' => n == n' && (v.same v' && Element.sameNamed es es')
  | _, _ => false

end

mutual

theorem Element.same_iff (a b : Element) : a.same b = true ↔ a = b := by
  cases a <;> cases b <;>
    simp only [Element.same, Bool.and_eq_true, beq_iff_eq, Bool.false_eq_true, reduceCtorEq,
      Element.const.injEq, Element.enumConst.injEq, Element.classLiteral.injEq,
      Element.array.injEq, Element.nested.injEq]
  case nested.nested inner inner' =>
    cases inner; cases inner'
    simp only [AnnotationOf.mk.injEq]
    rw [Element.sameNamed_iff]
  case array.array vs vs' => rw [Element.sameAll_iff]

theorem Element.sameAll_iff (as bs : List Element) : Element.sameAll as bs = true ↔ as = bs := by
  cases as <;> cases bs <;> simp only [Element.sameAll, Bool.and_eq_true, Bool.false_eq_true,
    reduceCtorEq, List.cons.injEq]
  rw [Element.same_iff, Element.sameAll_iff]

theorem Element.sameNamed_iff (as bs : List (UInt16 × Element)) :
    Element.sameNamed as bs = true ↔ as = bs := by
  cases as with
  | nil => cases bs <;> simp [Element.sameNamed]
  | cons a as =>
    cases bs with
    | nil => simp [Element.sameNamed]
    | cons b bs =>
      obtain ⟨n, v⟩ := a
      obtain ⟨n', v'⟩ := b
      simp only [Element.sameNamed, Bool.and_eq_true, beq_iff_eq, List.cons.injEq, Prod.mk.injEq]
      rw [Element.same_iff, Element.sameNamed_iff, and_assoc]

end

instance : DecidableEq Element := fun a b =>
  decidable_of_iff (a.same b = true) (Element.same_iff a b)

/-! ### Bytes -/

/-- Reads an annotation: its type, then a table of names and values, each of which is read by
`value`. -/
def AnnotationOf.reader {α : Type} (value : Reader α) : Reader (AnnotationOf α) := do
  let type ← Reader.u16
  let elements ← Reader.table do
    let name ← Reader.u16
    let v ← value
    return (name, v)
  return { type, elements }

namespace Element

/-- Whether `tag` is the letter of a constant: one of `B C D F I J S Z s`. -/
def isConstTag (tag : UInt8) : Bool :=
  tag ∈ [0x42, 0x43, 0x44, 0x46, 0x49, 0x4a, 0x53, 0x5a, 0x73]

/-- Reads a value that nests no deeper than `depth`: its letter, then what the letter announces.
A value has more bytes than levels, so the number of bytes at hand is depth enough. -/
def reader : (depth : Nat) → Reader Element
  | 0 => throw .truncated
  | depth + 1 => do
    let tag ← Reader.u8
    if isConstTag tag then return .const tag (← Reader.u16)
    else if tag = 0x65 then return .enumConst (← Reader.u16) (← Reader.u16)
    else if tag = 0x63 then return .classLiteral (← Reader.u16)
    else if tag = 0x40 then return .nested (← AnnotationOf.reader (reader depth))
    else if tag = 0x5b then return .array (← Reader.table (reader depth))
    else throw (.unknownElementTag tag)

mutual

/-- The bytes of a value. -/
def write : Element → Bytes
  | .const tag value => tag :: bytes16 value
  | .enumConst type name => 0x65 :: (bytes16 type ++ bytes16 name)
  | .classLiteral descriptor => 0x63 :: bytes16 descriptor
  | .nested ⟨type, elements⟩ =>
    0x40 :: (bytes16 type ++ (bytesOfCount elements.length ++ writeNamed elements))
  | .array values => 0x5b :: (bytesOfCount values.length ++ writeAll values)

/-- The bytes of values in a row. -/
def writeAll : List Element → Bytes
  | [] => []
  | v :: vs => write v ++ writeAll vs

/-- The bytes of named values in a row. -/
def writeNamed : List (UInt16 × Element) → Bytes
  | [] => []
  | (name, v) :: es => bytes16 name ++ (write v ++ writeNamed es)

end

end Element

namespace AnnotationInfo

/-- The bytes of an annotation.  Counts are taken modulo `2 ^ 16`. -/
def write (a : AnnotationInfo) : Bytes :=
  bytes16 a.type ++ (bytesOfCount a.elements.length ++ Element.writeNamed a.elements)

/-- The counted list of annotations that makes up all of `data`, which has no fewer bytes than its
values nest levels. -/
def readList (data : Bytes) : Except Malformation (List AnnotationInfo) :=
  Reader.whole (Reader.table (AnnotationOf.reader (Element.reader data.length)))
    (fun _ => .trailingAnnotationBytes) data

/-- The bytes of a counted list of annotations. -/
def writeList (annotations : List AnnotationInfo) : Bytes :=
  bytesOfCount annotations.length ++ annotations.flatMap write

/-! ### Looking up and building -/

/-- The value of the first element called `name`.  It and those before it have to have texts of
`pool` as their names. -/
def elementIn? (pool : ConstantPool) (name : String) :
    List (UInt16 × Element) → Except Malformation (Option Element)
  | [] => .ok none
  | (n, v) :: es => do
    if (← pool.utf8 n) = name then return some v
    else elementIn? pool name es

/-- The value of the first element of `a` called `name`, if there is one. -/
def element? (pool : ConstantPool) (name : String) (a : AnnotationInfo) :
    Except Malformation (Option Element) :=
  elementIn? pool name a.elements

/-- The letter of a text constant. -/
def stringTag : UInt8 := 0x73

/-- The text of the first element of `a` called `name`, if its value is a text of `pool`. -/
def stringElement? (pool : ConstantPool) (name : String) (a : AnnotationInfo) :
    Except Malformation (Option String) := do
  match ← element? pool name a with
  | some (.const tag value) => if tag = stringTag then some <$> pool.utf8 value else return none
  | _ => return none

/-- The descriptor of the type of `a`, a text of `pool`. -/
def typeDescriptor (pool : ConstantPool) (a : AnnotationInfo) : Except Malformation String :=
  pool.utf8 a.type

/-- An annotation of the type `descriptor` whose `elements` are texts.  The type is interned first,
then every name and its text in turn. -/
def withStrings (descriptor : String) (elements : List (String × String)) :
    Interning AnnotationInfo := do
  let type ← Interning.utf8 descriptor
  let elements ← elements.mapM fun (name, text) => do
    let n ← Interning.utf8 name
    let t ← Interning.utf8 text
    return (n, Element.const stringTag t)
  return { type, elements }

end AnnotationInfo

end ClassWeave
