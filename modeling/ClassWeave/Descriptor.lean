import ClassWeave.Malformation

/-!
# Field descriptors

A field descriptor (JVMS 4.3.2) is a letter for a primitive kind, `L`, a class name and `;` for an
object, or any number of `[` before one of these for an array.

* `ValueKind.parse` : the kind that a descriptor denotes, `parse`.  Of a class name only the ends of
  what stands around it are looked at.
* `ValueKind.descriptor` : the descriptor of a kind, `descriptor`.
* `ValueKind.packedSize`, `ValueKind.slots` : the bytes a value takes in a packed buffer, and the
  slots it takes on the operand stack; `packed_size` and `slots`.
-/

namespace ClassWeave

/-- The kind of value that a field holds. -/
inductive ValueKind where
  | boolean
  | byte
  | char
  | short
  | int
  | float
  | long
  | double
  /-- An instance of the class of this internal name. -/
  | object (name : String)
  /-- An array; its whole descriptor, brackets included. -/
  | array (descriptor : String)
  deriving DecidableEq, Repr

namespace ValueKind

/-- The kind of a descriptor that starts with no bracket: a single letter, or a class name between
`L` and `;`. -/
def ofElement? : List Char → Option ValueKind
  | ['Z'] => some boolean
  | ['B'] => some byte
  | ['C'] => some char
  | ['S'] => some short
  | ['I'] => some int
  | ['F'] => some float
  | ['J'] => some long
  | ['D'] => some double
  | 'L' :: rest =>
    if rest.getLast? = some ';' ∧ 1 < rest.length then some (object (String.ofList rest.dropLast))
    else none
  | _ => none

/-- The kind that `descriptor` denotes as a whole.  An array whose element is no descriptor is
refused for its element. -/
def parse (descriptor : String) : Except Malformation ValueKind :=
  let element := descriptor.toList.dropWhile (· == '[')
  match ofElement? element with
  | some kind => .ok (if descriptor.toList.head? = some '[' then array descriptor else kind)
  | none => .error (.badFieldDescriptor (String.ofList element))

/-- The descriptor of a kind. -/
def descriptor : ValueKind → String
  | boolean => "Z"
  | byte => "B"
  | char => "C"
  | short => "S"
  | int => "I"
  | float => "F"
  | long => "J"
  | double => "D"
  | object name => "L" ++ name ++ ";"
  | array descriptor => descriptor

/-- The kinds of fixed size. -/
def isPrimitive : ValueKind → Bool
  | object _ | array _ => false
  | _ => true

/-- The bytes that a value takes in a packed buffer.  Of an object only the number of its slot is
stored, which takes four. -/
def packedSize : ValueKind → Nat
  | boolean | byte => 1
  | char | short => 2
  | int | float | object _ | array _ => 4
  | long | double => 8

/-- The operand stack slots that a value takes. -/
def slots : ValueKind → Nat
  | long | double => 2
  | _ => 1

/-- The kind as a reader of a listing sees it: a type name with dots, and an array by its
descriptor. -/
def text : ValueKind → String
  | boolean => "boolean"
  | byte => "byte"
  | char => "char"
  | short => "short"
  | int => "int"
  | float => "float"
  | long => "long"
  | double => "double"
  | object name => name.map fun c => if c = '/' then '.' else c
  | array descriptor => descriptor

end ValueKind

end ClassWeave
