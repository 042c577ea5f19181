import ClassWeave.ClassFile.Basic

/-!
# Packed layouts

The instance fields of a packed component lie in a slot one after the other, in the order of their
declaration, each at a multiple of its own size.  Slots follow each other at a distance that keeps
every field of every slot aligned.

* `PackedLayout.ofFields` : the layout of a list of fields, `compute`.
* `PackedLayout.field?` : where the first field of a name lies, `field`.

Offsets are numbers of any size here.  The words that hold them have room for all that can be read
or written: at most `2 ^ 16` fields of at most eight bytes.
-/

namespace ClassWeave

/-- A field in a slot. -/
structure PackedField where
  /-- The name. -/
  name : String
  /-- The kind of value. -/
  kind : ValueKind
  /-- The number of bytes before it in the slot. -/
  offset : Nat
  /-- The number of bytes that it takes. -/
  size : Nat
  deriving DecidableEq, Repr

/-- How the fields of a component lie in its slots. -/
structure PackedLayout where
  /-- The distance between slots. -/
  stride : Nat
  /-- The fields in the order of their declaration. -/
  fields : List PackedField
  deriving DecidableEq, Repr

namespace PackedLayout

/-- The least multiple of `size` that is not below `offset`. -/
def align (offset size : Nat) : Nat := (offset + size - 1) / size * size

/-- Places the fields from `offset` on. -/
def place : (offset : Nat) → List Field → List PackedField
  | _, [] => []
  | offset, f :: fs =>
    let size := f.kind.packedSize
    let start := align offset size
    { name := f.name, kind := f.kind, offset := start, size } :: place (start + size) fs

/-- Where the last of the placed `fields` ends. -/
def endOf (fields : List PackedField) : Nat :=
  match fields.getLast? with
  | some f => f.offset + f.size
  | none => 0

/-- The greatest size among the placed `fields`, at least one. -/
def alignment (fields : List PackedField) : Nat := fields.foldl (fun a f => max a f.size) 1

/-- The layout of `fields` in this order; static fields have no place in it. -/
def ofFields (fields : List Field) : PackedLayout :=
  let placed := place 0 (fields.filter (!·.isStatic))
  { stride := align (endOf placed) (alignment placed), fields := placed }

/-- The first field called `name`. -/
def field? (layout : PackedLayout) (name : String) : Option PackedField :=
  layout.fields.find? (·.name == name)

end PackedLayout

end ClassWeave
