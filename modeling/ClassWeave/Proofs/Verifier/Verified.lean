import ClassWeave.ClassFile.Basic
import ClassWeave.Proofs.Verifier.StackMap
import ClassWeave.Proofs.Verifier.Typing
import Mathlib.Logic.Relation
import Mathlib.Order.Bounds.Basic

/-!
# Method bodies that pass the verifier

A verifier follows every path through a body, on types in place of values.

* `Point`, `Code.Flows`, `Code.Reached` : where a path stands, one step along it, and all that paths
  from the beginning come to.
* `Code.Verified` : a body that splits into instructions, through which every path is well typed,
  whose limits are exact, and whose frames tell what paths find where branches lead.
* `Member.Verified`, `Member.VerifiedAs` : a method whose body is verified against its descriptor.
* `ClassFile.HasPlainTypes` : units whose field types a verifier reads as they are meant.
-/

namespace ClassWeave

/-- Where a path through code stands, and the types at hand there. -/
structure Point where
  /-- The offset of the instruction that comes next. -/
  offset : Nat
  /-- The types at hand. -/
  typing : Typing
  deriving DecidableEq, Repr

namespace Code

/-- One step along a path: to the instruction behind, or to where a branch leads. -/
inductive Flows (pool : ConstantPool) (code : Bytes) : Point → Point → Prop where
  | next {offset width : Nat} {i : Instr} {s s' : Typing} :
      Instr.decode? pool (code.drop offset) = some (i, width) → i.transfer? s = some s' →
      Flows pool code ⟨offset, s⟩ ⟨offset + width, s'⟩
  | jump {offset target width : Nat} {i : Instr} {s s' : Typing} {distance : Int} :
      Instr.decode? pool (code.drop offset) = some (i, width) → i.transfer? s = some s' →
      i.distance? = some distance → (target : Int) = offset + distance →
      Flows pool code ⟨offset, s⟩ ⟨target, s'⟩

/-- A path goes on at a point, or returns what the method gives. -/
def GoesOn (pool : ConstantPool) (code : Bytes) (result? : Option ValueType) (p : Point) : Prop :=
  ∃ i width, Instr.decode? pool (code.drop p.offset) = some (i, width) ∧
    ((∃ s, i.transfer? p.typing = some s) ∨
      i = .ret result? ∧ ∃ rest, p.typing.stack = result?.toList ++ rest)

/-- The instruction at an offset may jump to a target. -/
def Jumps (pool : ConstantPool) (code : Bytes) (offset target : Nat) : Prop :=
  ∃ i width distance, Instr.decode? pool (code.drop offset) = some (i, width) ∧
    i.distance? = some distance ∧ (target : Int) = offset + distance

/-- Code splits into instructions that start at the offsets.  All of them are complete, they are
those that paths go along, and branches lead to their starts. -/
structure Splits (pool : ConstantPool) (code : Bytes) (starts : List Nat) : Prop where
  /-- The walk over the code finds the offsets. -/
  offsets : Instruction.offsets code = .ok starts
  /-- The instructions are decoded, with the lengths by which the walk goes on. -/
  decoded : ∀ start ∈ starts, ∃ i width,
    Instr.decode? pool (code.drop start) = some (i, width) ∧
      Instruction.lengthAt code start = .ok width
  /-- Branches lead to instructions. -/
  jumps : ∀ start ∈ starts, ∀ i width distance,
    Instr.decode? pool (code.drop start) = some (i, width) → i.distance? = some distance →
      ∃ target ∈ starts, (target : Int) = start + distance

variable (pool : ConstantPool) (arguments : List ValueType) (result? : Option ValueType)
  (body : Code)

/-- A path from the beginning comes to the point. -/
def Reached : Point → Prop :=
  Relation.ReflTransGen (Flows pool body.instructions)
    ⟨0, Typing.start body.maxLocals.toNat arguments⟩

/-- The frames among the attributes lie exactly where branches lead, each with the local variables
that paths find there and an empty operand stack.  There is no attribute without branches. -/
def HasFrames (starts : List Nat) : Prop :=
  (∀ start ∈ starts, ∀ target, ¬ Jumps pool body.instructions start target) ∧
    body.attributes = [] ∨
  ∃ name payload frames, body.attributes = [.raw name payload] ∧
    pool.utf8 name = .ok Attribute.stackMapName ∧
    StackMap.decode arguments payload = .ok frames ∧
    (∀ target, (∃ start ∈ starts, Jumps pool body.instructions start target) ↔
      ∃ frame ∈ frames, frame.offset = target) ∧
    ∀ frame ∈ frames, frame.stack = [] ∧ Reached pool arguments body ⟨frame.offset,
      { locals := Typing.places body.maxLocals.toNat frame.locals, stack := [] }⟩

/-- A body passes the verifier as one of a method with these arguments and this result. -/
structure Verified (framed : Bool) : Prop where
  /-- It catches nothing. -/
  handlers : body.handlers = []
  /-- The arguments fit into the local variables. -/
  fits : ValueType.slotsOf arguments ≤ body.maxLocals.toNat
  /-- It splits into instructions, and has frames if they are asked for. -/
  splits : ∃ starts, Splits pool body.instructions starts ∧
    if framed then HasFrames pool arguments body starts else body.attributes = []
  /-- There are always as many local variables as the body asks for. -/
  locals : ∀ p, Reached pool arguments body p → p.typing.locals.length = body.maxLocals.toNat
  /-- No path gets stuck. -/
  goesOn : ∀ p, Reached pool arguments body p → GoesOn pool body.instructions result? p
  /-- Paths that meet have the same types at hand. -/
  joins : ∀ p q, Reached pool arguments body p → Reached pool arguments body q →
    p.offset = q.offset → p.typing = q.typing
  /-- The greatest depth that a path comes to is the one that the body asks for. -/
  deepest : IsGreatest {depth | ∃ p, Reached pool arguments body p ∧ p.typing.depth = depth}
    body.maxStack.toNat

end Code

/-- The body of a method passes the verifier, with what the descriptor tells as arguments and
result, behind the object if the method is not static. -/
def Member.Verified (framed : Bool) (pool : ConstantPool) (m : Member) : Prop :=
  ∃ descriptor signature body, pool.utf8 m.descriptor = .ok descriptor ∧
    Descriptor.signature? descriptor = some signature ∧ m.code? = some body ∧
    Code.Verified pool ((if m.isInstance then [.ref] else []) ++ signature.parameters)
      signature.result? body framed

/-- The method passes the verifier, and has a name and a descriptor. -/
structure Member.VerifiedAs (framed : Bool) (pool : ConstantPool) (text : String × String)
    (m : Member) : Prop where
  /-- It has the name. -/
  name : m.nameIn pool = .ok text.1
  /-- It has the descriptor. -/
  descriptor : m.descriptorIn pool = .ok text.2
  /-- Its body passes the verifier. -/
  verified : m.Verified framed pool

/-- A verifier finds the end of every class name in the types of the instance fields: it has no `;`
and no `[` in it. -/
def ClassFile.HasPlainTypes (u : ClassFile) : Prop :=
  ∀ m ∈ u.fields, m.isInstance → ∀ descriptor kind, m.descriptorIn u.pool = .ok descriptor →
    ValueKind.parse descriptor = .ok kind → kind.Plain

end ClassWeave
