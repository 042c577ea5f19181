import ClassWeave.Error
import ClassWeave.Weaving.Growth

/-!
# Edits

Weaving changes a unit in few ways: members are appended, the superclass is replaced, an annotation
is attached, and single instructions are put in place of others of the same length.  So offsets,
branches and exception ranges stay as they are, and the pool only grows.

* `Edit` : computations that change a unit and may fail; what was changed before a failure stays.
* `Edit.grow`, `Edit.annotate` : appending members, and an annotation as
  `add_invisible_annotation` does.
* `Edit.rewriteSites` : other instructions in place of chosen ones.
* `Edit.reparent` : another superclass, with the constructor calls that go to it; `reparent`, which
  calls `set_super_name`.
-/

namespace ClassWeave

/-- Computations that change a unit and can fail; a failure keeps what was changed before it. -/
abbrev Edit := ExceptT Error (StateM ClassFile)

namespace Edit

/-- Asks a `question` of the unit, which is left as it is. -/
def ask {α : Type} (question : ClassFile → Except Malformation α) : Edit α := do
  match question (← get) with
  | .ok a => return a
  | .error cause => throw (.malformed cause)

/-- Appends what the computation `act` gains, also when it fails. -/
def grow {α : Type} (act : Growing α) : Edit α := ExceptT.mk fun u =>
  let ((result, g), pool) := (act.run (.start u)).run u.pool
  (result.mapError .malformed, g.appendTo { u with pool })

/-- Interns the constants of `act` in the pool of the unit. -/
def interning {α : Type} (act : Interning α) : Edit α := grow (Growing.interning act)

/-! ### Annotations and the superclass -/

/-- The attributes with the annotation `a` added to the first list of invisible annotations among
them; nothing when there is no such list. -/
def addToInvisible (pool : ConstantPool) (a : AnnotationInfo) :
    List Attribute → Except Malformation (Option (List Attribute))
  | [] => .ok none
  | first :: rest => do
    let text ← pool.utf8 first.name
    match first with
    | .annotations name list =>
      if text = Attribute.invisibleName then return some (.annotations name (list ++ [a]) :: rest)
      else return (← addToInvisible pool a rest).map (first :: ·)
    | _ => return (← addToInvisible pool a rest).map (first :: ·)

/-- Attaches the annotation `a`, which is only kept in the class file. -/
def annotate (a : AnnotationInfo) : Edit Unit := do
  match ← ask fun u => addToInvisible u.pool a u.attributes with
  | some attributes => modify fun u => { u with attributes }
  | none =>
    let name ← interning (.utf8 Attribute.invisibleName)
    modify fun u => { u with attributes := u.attributes ++ [.annotations name [a]] }

/-- Makes `name` the superclass. -/
def setSuperName (name : String) : Edit Unit := do
  let superClass ← interning (.classRef name)
  modify fun u => { u with superClass }

/-! ### Rewriting instructions -/

open Instruction (Site)

/-- The member instructions that `choose` picks in the first body of every one of the `methods`. -/
def chooseSites (choose : Member → Site → Except Malformation Bool) (methods : List Member) :
    Except Malformation (List (List Site)) :=
  methods.mapM fun m =>
    match m.code? with
    | some code => do (← Instruction.memberSites code.instructions).filterM (choose m)
    | none => return []

/-- What `redirect` makes of sites in a row, up to the first that fails, and its failure. -/
def redirectSites (redirect : Site → Interning Site) :
    List Site → ConstantPool → (List Site × Option Malformation) × ConstantPool
  | [], pool => (([], none), pool)
  | s :: sites, pool =>
    match (redirect s).run pool with
    | (.error cause, pool) => (([], some cause), pool)
    | (.ok s', pool) =>
      let ((done, failure?), pool) := redirectSites redirect sites pool
      ((s' :: done, failure?), pool)

/-- Methods with what `redirect` makes of their sites in place, up to the first site that fails. -/
def redirectMethods (redirect : Site → Interning Site) :
    List (Member × List Site) → ConstantPool →
      (List Member × Option Malformation) × ConstantPool
  | [], pool => (([], none), pool)
  | (m, sites) :: rest, pool =>
    let ((done, failure?), pool) := redirectSites redirect sites pool
    let m := m.mapCode fun code =>
      { code with instructions := Instruction.replace done code.instructions }
    match failure? with
    | some cause => ((m :: rest.map Prod.fst, some cause), pool)
    | none =>
      let ((methods, failure?), pool) := redirectMethods redirect rest pool
      ((m :: methods, failure?), pool)

/-- Puts other instructions in place of the member instructions that `choose` picks in all method
bodies.  All are picked before the first is replaced; a failure leaves those before it replaced. -/
def rewriteSites (choose : ConstantPool → Member → Site → Except Malformation Bool)
    (redirect : ConstantPool → Site → Interning Site) : Edit Unit := do
  let chosen ← ask fun u => chooseSites (choose u.pool) u.methods
  let u ← get
  let ((methods, failure?), pool) :=
    redirectMethods (redirect u.pool) (u.methods.zip chosen) u.pool
  set { u with methods, pool }
  if let some cause := failure? then throw (.malformed cause)

/-- Whether an instruction in a constructor calls a constructor of the class `owner`. -/
def callsConstructorOf (owner : String) (pool : ConstantPool) (m : Member) (s : Site) :
    Except Malformation Bool := do
  if s.opcode ≠ Opcode.invokeSpecial then return false
  if (← m.nameIn pool) ≠ "<init>" then return false
  let target ← pool.memberRef s.operand
  return target.owner = owner && target.name = "<init>"

/-- The call at the site `s` as one of the constructor of the class `owner`. -/
def redirectConstructor (owner : String) (pool : ConstantPool) (s : Site) : Interning Site := do
  let target ← pool.memberRef s.operand
  let operand ← Interning.methodRef owner "<init>" target.descriptor
  return { s with operand }

/-- Moves a unit from the superclass `old` to the superclass `new`, and with it the calls of
superclass constructors.  A unit with another superclass stays as it is. -/
def reparent (old new : String) : Edit Unit := do
  let superName? ← ask ClassFile.superName?
  if superName? = some old then
    setSuperName new
    rewriteSites (callsConstructorOf old) (redirectConstructor new)

end Edit

end ClassWeave
