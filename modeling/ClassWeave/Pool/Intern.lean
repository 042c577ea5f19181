import ClassWeave.Pool.Basic

/-!
# Interning constants

A pool only ever grows at its end, so that every slot number written down anywhere stays valid.
Interning a constant finds the first slot that holds it, or appends it.

* `ConstantPool.insert` : the slot of one constant, appended if need be; `intern`, which calls
  `find` and `push`.
* `Interning` : computations that may append constants and may fail; what was appended before a
  failure stays.
* `Interning.utf8`, `classRef`, `nameAndType`, `fieldRef`, `methodRef` : the slot of a compound
  constant, with all that it refers to; `intern_utf8`, `intern_class`, `intern_name_and_type`,
  `intern_field_ref` and `intern_method_ref`.
-/

namespace ClassWeave

namespace ConstantPool

variable (p : ConstantPool)

/-- The greatest number of slots that the count in front of a pool can tell. -/
def maxSlots : Nat := 65535

/-- Whether a slot holds the constant `c`. -/
def holds (c : Constant) : Option Constant → Bool
  | some d => decide (d = c)
  | none => false

/-- The first slot that holds the constant `c`, unless its number does not fit into a half word. -/
def indexOf? (c : Constant) : Option UInt16 :=
  match p.slots.findIdx? (holds c) with
  | some i => if i < 2 ^ 16 then some (UInt16.ofNat i) else none
  | none => none

/-- The pool with the constant `c` in new slots at its end. -/
def push (c : Constant) : ConstantPool :=
  if c.isWide then ⟨(p.slots.push (some c)).push none⟩ else ⟨p.slots.push (some c)⟩

/-- The slot of the constant `c` and a pool that holds it there: the first slot that holds it
already, or else new slots at the end, when there is room for them. -/
def insert (c : Constant) : Except Malformation UInt16 × ConstantPool :=
  match p.indexOf? c with
  | some index => (.ok index, p)
  | none =>
    if p.size + c.width ≤ maxSlots then (.ok (UInt16.ofNat p.size), p.push c)
    else (.error .poolOverflow, p)

end ConstantPool

/-- Computations on a pool that can fail; a failure keeps what was appended before it. -/
abbrev Interning := ExceptT Malformation (StateM ConstantPool)

namespace Interning

/-- The slot of the constant `c`. -/
def constant (c : Constant) : Interning UInt16 := ExceptT.mk fun p => p.insert c

/-- The slot of the `text`. -/
def utf8 (text : String) : Interning UInt16 := constant (.utf8 text)

/-- The slot of the integer `value`. -/
def integer (value : Int32) : Interning UInt16 := constant (.integer value)

/-- The slot of the class `name`, whose name is interned first. -/
def classRef (name : String) : Interning UInt16 := do
  constant (.classInfo (← utf8 name))

/-- The slot that pairs `name` and `descriptor`, which are interned first, in this order. -/
def nameAndType (name descriptor : String) : Interning UInt16 := do
  let n ← utf8 name
  let d ← utf8 descriptor
  constant (.nameAndType n d)

/-- The slot of the field `name` of type `descriptor` of the class `owner`. -/
def fieldRef (owner name descriptor : String) : Interning UInt16 := do
  let o ← classRef owner
  let nt ← nameAndType name descriptor
  constant (.fieldRef o nt)

/-- The slot of the method `name` of type `descriptor` of the class `owner`. -/
def methodRef (owner name descriptor : String) : Interning UInt16 := do
  let o ← classRef owner
  let nt ← nameAndType name descriptor
  constant (.methodRef o nt)

end Interning

end ClassWeave
