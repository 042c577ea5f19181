import ClassWeave.Malformation

/-!
# The constant pool

The constants of a class file (JVMS 4.4), addressed by slot numbers.  Slot 0 is never used, and the
slot after a wide constant stays empty, so the slots hold `Option`s.

* `ConstantPool.get` : the constant in a slot, `get`.
* `ConstantPool.utf8`, `className`, `nameAndType`, `memberRef` : the texts that a slot leads to;
  `utf8`, `class_name`, `name_and_type` and `member_ref`.
-/

namespace ClassWeave

/-- The constants of a class file by slot. -/
structure ConstantPool where
  /-- Slot 0 and the slot after a wide constant are empty. -/
  slots : Array (Option Constant) := #[none]
  deriving DecidableEq, Repr

/-- A field or method that a constant refers to. -/
structure MemberRef where
  /-- The internal name of the class. -/
  owner : String
  /-- The name of the member. -/
  name : String
  /-- The descriptor of the member. -/
  descriptor : String
  deriving DecidableEq, Repr

namespace ConstantPool

variable (p : ConstantPool)

/-- The pool without constants. -/
def empty : ConstantPool := {}

/-- The number of slots, the unused slot 0 included. -/
def size : Nat := p.slots.size

/-- No slot after slot 0 is taken. -/
def isEmpty : Bool := p.size ≤ 1

/-- The constant in the slot `index`, if there is one. -/
def get? (index : UInt16) : Option Constant := (p.slots[index.toNat]?).join

/-- The constant in the slot `index`, which must not be empty. -/
def get (index : UInt16) : Except Malformation Constant :=
  match p.get? index with
  | some c => .ok c
  | none => .error (.noConstant index)

/-- The text in the slot `index`. -/
def utf8 (index : UInt16) : Except Malformation String := do
  match ← p.get index with
  | .utf8 text => .ok text
  | other => .error (.wrongConstant index .utf8 other)

/-- The internal name of the class in the slot `index`. -/
def className (index : UInt16) : Except Malformation String := do
  match ← p.get index with
  | .classInfo name => p.utf8 name
  | other => .error (.wrongConstant index .classInfo other)

/-- The name and the descriptor that the slot `index` pairs. -/
def nameAndType (index : UInt16) : Except Malformation (String × String) := do
  match ← p.get index with
  | .nameAndType name descriptor => return (← p.utf8 name, ← p.utf8 descriptor)
  | other => .error (.wrongConstant index .nameAndType other)

/-- A member from the slots `owner` of its class and `nameAndType` of its name and type.  The latter
is looked up first. -/
def member (owner nameAndType : UInt16) : Except Malformation MemberRef := do
  let (name, descriptor) ← p.nameAndType nameAndType
  return { owner := ← p.className owner, name, descriptor }

/-- The field or method that the slot `index` refers to. -/
def memberRef (index : UInt16) : Except Malformation MemberRef := do
  match ← p.get index with
  | .fieldRef owner nameAndType => p.member owner nameAndType
  | .methodRef owner nameAndType => p.member owner nameAndType
  | .interfaceMethodRef owner nameAndType => p.member owner nameAndType
  | other => .error (.wrongConstant index .memberRef other)

end ConstantPool

end ClassWeave
