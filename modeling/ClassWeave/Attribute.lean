import ClassWeave.Annotation

/-!
# Attributes

Classes, fields, methods and method bodies carry attributes (JVMS 4.7).  Only method bodies and
annotations are taken apart; every other attribute keeps its bytes.

* `Attribute`, `Code` : the model of `Attribute` and `CodeAttribute`; a method body carries
  attributes again.
* `Attribute.tableReader`, `Attribute.writeTable` : counted tables of attributes as bytes,
  `read_table` and `write_table`.  The name of an attribute decides how its payload is read.
* `Attribute.code?`, `Attribute.mapCode` : the method body among attributes, `code` and `code_mut`.
-/

namespace ClassWeave

/-- A row of an exception table. -/
structure Handler where
  /-- The first protected offset. -/
  start : UInt16
  /-- The offset after the protected ones. -/
  stop : UInt16
  /-- Where the handler starts. -/
  target : UInt16
  /-- The slot of the class that is caught, or 0 for all. -/
  caught : UInt16
  deriving DecidableEq, Repr

/-- A method body that carries attributes of the type `α`. -/
structure CodeOf (α : Type) where
  /-- The deepest operand stack. -/
  maxStack : UInt16
  /-- The number of local variable slots. -/
  maxLocals : UInt16
  /-- The instructions. -/
  instructions : Bytes
  /-- The exception table. -/
  handlers : List Handler
  /-- Stack maps, line numbers and the like. -/
  attributes : List α
  deriving DecidableEq, Repr

/-- An attribute: the slot of its name, and its contents. -/
inductive Attribute where
  /-- Bytes that nobody looks into. -/
  | raw (name : UInt16) (payload : Bytes)
  /-- A list of annotations. -/
  | annotations (name : UInt16) (list : List AnnotationInfo)
  /-- A method body. -/
  | code (name : UInt16) (body : CodeOf Attribute)
  deriving Repr

/-- A method body. -/
abbrev Code := CodeOf Attribute

namespace Attribute

/-- The name of method bodies. -/
def codeName : String := "Code"

/-- The name of the annotations that are visible when the program runs. -/
def visibleName : String := "RuntimeVisibleAnnotations"

/-- The name of the annotations that are only kept in the class file. -/
def invisibleName : String := "RuntimeInvisibleAnnotations"

/-- The name of the values of static fields. -/
def constantValueName : String := "ConstantValue"

/-- The name of the frames for the verifier. -/
def stackMapName : String := "StackMapTable"

/-- The slot of the name. -/
def name : Attribute → UInt16
  | raw name _ | annotations name _ | code name _ => name

/-! ### Equality -/

mutual

/-- Whether two attributes are the same, which the nesting keeps from being derived. -/
def same : Attribute → Attribute → Bool
  | .raw n bs, .raw n' bs' => n == n' && bs == bs'
  | .annotations n as, .annotations n' as' => n == n' && as == as'
  | .code n ⟨s, l, c, hs, as⟩, .code n' ⟨s', l', c', hs', as'⟩ =>
    n == n' && (s == s' && (l == l' && (c == c' && (hs == hs' && sameAll as as'))))
  | _, _ => false

/-- Whether two tables of attributes are the same. -/
def sameAll : List Attribute → List Attribute → Bool
  | [], [] => true
  | a :: as, b :: bs => same a b && sameAll as bs
  | _, _ => false

end

mutual

theorem same_iff (a b : Attribute) : a.same b = true ↔ a = b := by
  cases a with
  | raw n bs => cases b <;> simp [same]
  | annotations n as => cases b <;> simp [same]
  | code n body =>
    obtain ⟨s, l, c, hs, as⟩ := body
    cases b with
    | raw _ _ => simp [same]
    | annotations _ _ => simp [same]
    | code n' body' =>
      obtain ⟨s', l', c', hs', as'⟩ := body'
      simp only [same, Bool.and_eq_true, beq_iff_eq, code.injEq, CodeOf.mk.injEq]
      rw [sameAll_iff]

theorem sameAll_iff (as bs : List Attribute) : sameAll as bs = true ↔ as = bs := by
  cases as with
  | nil => cases bs <;> simp [sameAll]
  | cons a as =>
    cases bs with
    | nil => simp [sameAll]
    | cons b bs =>
      simp only [sameAll, Bool.and_eq_true, List.cons.injEq]
      rw [same_iff, sameAll_iff]

end

instance : DecidableEq Attribute := fun a b =>
  decidable_of_iff (a.same b = true) (same_iff a b)

end Attribute

/-! ### Bytes -/

/-- Reads a row of an exception table. -/
def Handler.reader : Reader Handler := do
  let start ← Reader.u16
  let stop ← Reader.u16
  let target ← Reader.u16
  let caught ← Reader.u16
  return { start, stop, target, caught }

/-- The bytes of a row of an exception table. -/
def Handler.write (h : Handler) : Bytes :=
  bytes16 h.start ++ (bytes16 h.stop ++ (bytes16 h.target ++ bytes16 h.caught))

/-- Reads a method body whose attributes are read by `attributes`.  A body has at least one byte of
code and at most 65535. -/
def CodeOf.reader {α : Type} (attributes : Reader (List α)) : Reader (CodeOf α) := do
  let maxStack ← Reader.u16
  let maxLocals ← Reader.u16
  let length ← Reader.u32
  if length = 0 ∨ 65536 ≤ length then throw (.badCodeLength length)
  let instructions ← Reader.bytes length.toNat
  let handlers ← Reader.table Handler.reader
  let attributes ← attributes
  return { maxStack, maxLocals, instructions, handlers, attributes }

/-- The bytes of a method body up to its attributes: the limits `maxStack` and `maxLocals`, the
`instructions` behind their length, and the counted `handlers`. -/
def Code.writeFront (maxStack maxLocals : UInt16) (instructions : Bytes)
    (handlers : List Handler) : Except Malformation Bytes := do
  let length := instructions.length
  if 2 ^ 32 ≤ length then throw .codeTooLarge
  let count := handlers.length
  if 2 ^ 16 ≤ count then throw .tooManyHandlers
  return bytes16 maxStack ++ (bytes16 maxLocals ++ (BigEndian.encode 4 length ++ (instructions ++
    (bytesOfCount count ++ handlers.flatMap Handler.write))))

namespace Attribute

/-- Reads an attribute, named by a text of `pool`, in which method bodies nest no deeper than
`depth`.  The length in front of the payload is believed before the name is looked at, and the
payload has to be used up.  An attribute has more bytes than levels, so the number of bytes at hand
is depth enough. -/
def reader (pool : ConstantPool) : (depth : Nat) → Reader Attribute
  | 0 => throw .truncated
  | depth + 1 => do
    let name ← Reader.u16
    let length ← Reader.u32
    let payload ← Reader.bytes length.toNat
    let text ← pool.utf8 name
    if text = codeName then
      return .code name (← Reader.whole (CodeOf.reader (Reader.table (reader pool depth)))
        (fun _ => .trailingCodeBytes) payload)
    else if text = visibleName ∨ text = invisibleName then
      return .annotations name (← AnnotationInfo.readList payload)
    else return .raw name payload

/-- Reads a counted table of attributes, named by texts of `pool`. -/
def tableReader (pool : ConstantPool) (depth : Nat) : Reader (List Attribute) :=
  Reader.table (reader pool depth)

/-- The `payload` of an attribute behind the slot `name` and its length. -/
def framed (name : UInt16) (payload : Bytes) : Except Malformation Bytes :=
  let length := payload.length
  if length < 2 ^ 32 then .ok (bytes16 name ++ (BigEndian.encode 4 length ++ payload))
  else .error .payloadTooLarge

/-- The bytes `rows` of attributes behind their `count`, which is checked before they are
written. -/
def framedTable (count : Nat) (rows : Except Malformation Bytes) : Except Malformation Bytes := do
  if 2 ^ 16 ≤ count then throw .tooManyAttributes
  return bytesOfCount count ++ (← rows)

mutual

/-- The bytes of an attribute. -/
def write : Attribute → Except Malformation Bytes
  | .raw name payload => framed name payload
  | .annotations name list => framed name (AnnotationInfo.writeList list)
  | .code name ⟨maxStack, maxLocals, instructions, handlers, nested⟩ => do
    let front ← Code.writeFront maxStack maxLocals instructions handlers
    let table ← framedTable nested.length (writeAll nested)
    framed name (front ++ table)

/-- The bytes of attributes in a row. -/
def writeAll : List Attribute → Except Malformation Bytes
  | [] => return []
  | a :: as => do
    let first ← write a
    let others ← writeAll as
    return first ++ others

end

/-- The bytes of a counted table of attributes. -/
def writeTable (attributes : List Attribute) : Except Malformation Bytes :=
  framedTable attributes.length (writeAll attributes)

/-! ### Method bodies -/

/-- The first method body among `attributes`. -/
def code? (attributes : List Attribute) : Option Code :=
  attributes.findSome? fun
    | .code _ body => some body
    | _ => none

/-- Attributes with their first method body edited by `f`. -/
def mapCode (f : Code → Code) : List Attribute → List Attribute
  | [] => []
  | .code name body :: rest => .code name (f body) :: rest
  | a :: rest => a :: mapCode f rest

end Attribute

end ClassWeave
