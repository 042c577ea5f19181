import ClassWeave.Body.Emission

/-!
# Listings

A listing is a sequence of directives for a body under construction.  Branches are numbered in the
order in which they are written, and a directive can point a branch to the current position by its
number.

* `Directive.run` : carries out one directive; a directive that fails leaves the body as it was.
* `Directive.runAll` : carries out a listing, up to the first failure.
-/

namespace ClassWeave

/-- One step in writing a body. -/
inductive Directive where
  /-- Push the object whose method runs. -/
  | this
  /-- An instruction without operand. -/
  | op (opcode : UInt8) (effect : Int)
  /-- An instruction with a byte. -/
  | op8 (opcode operand : UInt8) (effect : Int)
  /-- An instruction with a half word. -/
  | op16 (opcode : UInt8) (operand : UInt16) (effect : Int)
  /-- Bytes as they are. -/
  | raw (bytes : Bytes)
  /-- A change of the stack depth. -/
  | stack (effect : Int)
  /-- A branch. -/
  | branch (opcode : UInt8) (effect : Int)
  /-- Point the branch that starts at `start` to the current position. -/
  | patch (start : Nat)
  /-- Point a branch, by its number, to the current position. -/
  | patchLabel (label : Nat)
  /-- Push an integer. -/
  | pushInt (value : Int32)
  /-- Push the default value of what the descriptor denotes. -/
  | pushDefault (descriptor : String)
  /-- Push the first parameter, of what the descriptor denotes. -/
  | loadParameter (descriptor : String)
  /-- Return what the descriptor denotes, or nothing. -/
  | returnValue (descriptor? : Option String)
  /-- An instruction on a field. -/
  | fieldRef (opcode : UInt8) (owner name descriptor : String) (effect : Int)
  /-- An instruction on a method. -/
  | methodRef (opcode : UInt8) (owner name descriptor : String) (effect : Int)
  /-- An instruction on a class. -/
  | classRef (opcode : UInt8) (name : String) (effect : Int)
  /-- An instruction on any constant. -/
  | constant (opcode : UInt8) (constant : Constant) (effect : Int)
  deriving DecidableEq, Repr

/-- Computations that write a body and number its branches by where they start. -/
abbrev Drafting := StateT (Array Nat) Emission

/-- Carries out a directive.  A descriptor that denotes nothing fails it. -/
def Directive.run : Directive → Drafting Unit
  | .this => Emission.this
  | .op opcode effect => Emission.op opcode effect
  | .op8 opcode operand effect => Emission.emit (·.op8 opcode operand effect)
  | .op16 opcode operand effect => Emission.op16 opcode operand effect
  | .raw bytes => Emission.emit fun b => bytes.foldl (fun b byte => b.op byte 0) b
  | .stack effect => Emission.emit (·.stack effect)
  | .branch opcode effect => do
    let start ← Emission.branch opcode effect
    modify (·.push start)
  | .patch start => Emission.patch start
  | .patchLabel label => do
    match (← get)[label]? with
    | some start => Emission.patch start
    | none => throw (.described s!"no branch {label}")
  | .pushInt value => Emission.pushInt value
  | .pushDefault descriptor => do
    let kind ← ValueKind.parse descriptor
    Emission.emit (·.pushDefault kind)
  | .loadParameter descriptor => do
    let kind ← ValueKind.parse descriptor
    Emission.emit (·.loadParameter kind)
  | .returnValue none => Emission.emit (·.returnValue none)
  | .returnValue (some descriptor) => do
    let kind ← ValueKind.parse descriptor
    Emission.emit (·.returnValue (some kind))
  | .fieldRef opcode owner name descriptor effect =>
    Emission.fieldRef opcode owner name descriptor effect
  | .methodRef opcode owner name descriptor effect =>
    Emission.methodRef opcode owner name descriptor effect
  | .classRef opcode name effect => Emission.classRef opcode name effect
  | .constant opcode c effect => Emission.constant opcode c effect

/-- Carries out the directives of `listing` in a row, up to the first that fails.  No branch has a
number before it. -/
def Directive.runAll (listing : List Directive) : Emission Unit :=
  (listing.forM Directive.run : Drafting Unit).run' #[]

end ClassWeave
