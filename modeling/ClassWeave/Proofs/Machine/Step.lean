import ClassWeave.Member
import ClassWeave.Proofs.Machine.Code
import ClassWeave.Proofs.Machine.Library
import Mathlib.Computability.StateTransition

/-!
# A small machine

The machine runs the bodies of a class from their bytes.  Each running method has an operand stack
and local variables of its own, and all share a heap.  The static methods of the class call each
other; other calls lead to the library or to a constructor without parameters.

* `Program.step?`, `Program.Reaches` : one step, and any number of them.
* `Program.Completes` : code that runs to its end, whatever method called it.
* `Completes.plain`, `call`, `skip`, `enter`, `ret` : the laws by which code completes.
* `Program.Drains`, `CodeDrains` : calls and code that return with nothing on the operand stack.
-/

namespace ClassWeave

/-! ### Instructions that neither branch nor return -/

/-- What an instruction works on. -/
structure Activation where
  /-- The operand stack, top first. -/
  stack : List Value
  /-- The local variables. -/
  locals : Nat → Option Value
  /-- The state that methods share. -/
  heap : Heap

/-- What the constructors of other classes do to a new object, by its class and number. -/
abbrev Constructors := String → Nat → Heap → Heap

/-- What an instruction does, if it completes. -/
def Instr.run? (construct : Constructors) : Instr → Activation → Option Activation
  | .push v, ⟨stack, locals, h⟩ => some ⟨v :: stack, locals, h⟩
  | .load type i, ⟨stack, locals, h⟩ => do
    let v ← locals i
    if v.type = type then some ⟨v :: stack, locals, h⟩ else none
  | .store type i, ⟨v :: stack, locals, h⟩ =>
    if v.type = type then some ⟨stack, fun j => if j = i then some v else locals j, h⟩ else none
  | .pop, ⟨v :: stack, locals, h⟩ => if v.isWide then none else some ⟨stack, locals, h⟩
  | .dup, ⟨v :: stack, locals, h⟩ => if v.isWide then none else some ⟨v :: v :: stack, locals, h⟩
  | .add, ⟨.int b :: .int a :: stack, locals, h⟩ => some ⟨.int (a + b) :: stack, locals, h⟩
  | .mul, ⟨.int b :: .int a :: stack, locals, h⟩ => some ⟨.int (a * b) :: stack, locals, h⟩
  | .getStatic m, ⟨stack, locals, h⟩ => some ⟨h.statics m :: stack, locals, h⟩
  | .putStatic m, ⟨v :: stack, locals, h⟩ => some ⟨stack, locals, h.setStatic m v⟩
  | .getField m, ⟨.ref (some o) :: stack, locals, h⟩ => do
    let v ← h.field? o m
    return ⟨v :: stack, locals, h⟩
  | .putField m, ⟨v :: .ref (some o) :: stack, locals, h⟩ => do
    let h ← h.setField? o m v
    return ⟨stack, locals, h⟩
  | .new className, ⟨stack, locals, h⟩ =>
    let (o, h) := h.create className
    some ⟨.ref (some o) :: stack, locals, h⟩
  | .invoke kind m, ⟨stack, locals, h⟩ =>
    match Native.find? kind m, stack with
    | some native, stack => do
      let (stack, h) ← native.run? stack h
      return ⟨stack, locals, h⟩
    | none, .ref (some o) :: stack =>
      if kind = .special ∧ m.name = "<init>" ∧ m.descriptor = "()V" then
        some ⟨stack, locals, construct m.owner o h⟩
      else none
    | none, _ => none
  | _, _ => none

/-- Whether a test succeeds, and the stack without what it tested. -/
def Test.run? : Test → List Value → Option (Bool × List Value)
  | nonNull, .ref target? :: stack => some (target?.isSome, stack)
  | ge, .int b :: .int a :: stack => some (decide (b.toInt ≤ a.toInt), stack)
  | _, _ => none

/-! ### Programs -/

/-- A running method. -/
structure Frame where
  /-- Its code. -/
  code : Bytes
  /-- The position in the code. -/
  position : Nat
  /-- The operand stack, top first. -/
  stack : List Value
  /-- The local variables. -/
  locals : Nat → Option Value

/-- What the machine is in the middle of. -/
inductive MachineState where
  /-- Methods are running, the one that was called last first. -/
  | running (frames : List Frame) (heap : Heap)
  /-- The first method has returned. -/
  | done (result? : Option Value) (heap : Heap)

namespace MachineState

/-- Where a method goes on after one that it called has returned. -/
def resume (result? : Option Value) (frames : List Frame) (h : Heap) : MachineState :=
  match frames with
  | [] => done result? h
  | f :: frames => running ({ f with stack := result?.toList ++ f.stack } :: frames) h

end MachineState

/-- The parameters that are told from here on, where `inName` says whether a class name goes on. -/
def parameterCount (inName : Bool) : List Char → Nat
  | [] => 0
  | c :: cs =>
    if inName then parameterCount (c ≠ ';') cs
    else if c = ')' then 0
    else if c = '(' ∨ c = '[' then parameterCount false cs
    else parameterCount (c = 'L') cs + 1

/-- The local variables that a method starts with.  A wide value takes two. -/
def localsOf : List Value → Nat → Option Value
  | [], _ => none
  | v :: _, 0 => some v
  | v :: vs, i + 1 =>
    if v.isWide then
      match i with
      | 0 => none
      | i + 1 => localsOf vs i
    else localsOf vs i

/-- A frame at the beginning of code. -/
def Frame.start (code : Bytes) (arguments : List Value) : Frame :=
  { code, position := 0, stack := [], locals := localsOf arguments }

/-- What the machine runs. -/
structure Program where
  /-- The name of the class. -/
  owner : String
  /-- The pool that the bodies refer to. -/
  pool : ConstantPool
  /-- The methods of the class. -/
  methods : List Member
  /-- The constructors of other classes. -/
  construct : Constructors

namespace Program

open MachineState

/-- The body of the method of the class that an instruction calls, and the number of its
parameters. -/
def called? (P : Program) : Instr → Option (Code × Nat)
  | .invoke .static m =>
    if (Native.find? .static m).isNone ∧ m.owner = P.owner then do
      let method ← P.methods.find? fun method =>
        method.nameIn P.pool == .ok m.name && method.descriptorIn P.pool == .ok m.descriptor
      let body ← method.code?
      return (body, parameterCount false m.descriptor.toList)
    else none
  | _ => none

/-- Where a branch leads: behind itself, or to its target if the test succeeds. -/
def branch? (f : Frame) (test : Test) (distance : Int) (width : Nat) : Option Frame := do
  let (succeeds, stack) ← test.run? f.stack
  if succeeds then
    if 0 ≤ f.position + distance then
      some { f with position := (f.position + distance).toNat, stack }
    else none
  else some { f with position := f.position + width, stack }

/-- What the first of the running methods does at an instruction of a width, if it can. -/
def execute? (P : Program) (i : Instr) (width : Nat) (f : Frame) (frames : List Frame) (h : Heap) :
    Option MachineState :=
  match i with
  | .ifNonNull distance => (fun f => running (f :: frames) h) <$> branch? f .nonNull distance width
  | .ifGe distance => (fun f => running (f :: frames) h) <$> branch? f .ge distance width
  | .ret none => some (resume none frames h)
  | .ret (some type) =>
    match f.stack with
    | v :: _ => if v.type = type then some (resume (some v) frames h) else none
    | [] => none
  | i =>
    match P.called? i with
    | some (body, count) =>
      if count ≤ f.stack.length then
        some (running (Frame.start body.instructions (f.stack.take count).reverse ::
          { f with position := f.position + width, stack := f.stack.drop count } :: frames) h)
      else none
    | none => do
      let ⟨stack, locals, h⟩ ← i.run? P.construct ⟨f.stack, f.locals, h⟩
      return running ({ f with position := f.position + width, stack, locals } :: frames) h

/-- One step of the machine, if it can make one. -/
def step? (P : Program) : MachineState → Option MachineState
  | running (f :: frames) h => do
    let (i, width) ← Instr.decode? P.pool (f.code.drop f.position)
    P.execute? i width f frames h
  | _ => none

/-- The machine gets from one state to another. -/
def Reaches (P : Program) : MachineState → MachineState → Prop := StateTransition.Reaches P.step?

theorem Reaches.head {P : Program} {s t u : MachineState} (hstep : P.step? s = some t)
    (h : P.Reaches t u) : P.Reaches s u :=
  Relation.ReflTransGen.head hstep h

theorem Reaches.trans {P : Program} {s t u : MachineState} (h : P.Reaches s t)
    (h' : P.Reaches t u) : P.Reaches s u :=
  Relation.ReflTransGen.trans h h'

/-- Calling a method with a body on some arguments returns. -/
def Calls (P : Program) (body : Code) (arguments : List Value) (h : Heap) (result? : Option Value)
    (h' : Heap) : Prop :=
  P.Reaches (running [Frame.start body.instructions arguments] h) (done result? h')

/-- A call returns in one way only. -/
theorem Calls.unique {P : Program} {body : Code} {arguments : List Value} {h h' h'' : Heap}
    {r r' : Option Value} (hc : P.Calls body arguments h r h')
    (hc' : P.Calls body arguments h r' h'') : r = r' ∧ h' = h'' := by
  have heq := Part.mem_unique (StateTransition.mem_eval.2 ⟨hc, rfl⟩)
    (StateTransition.mem_eval.2 ⟨hc', rfl⟩)
  cases heq
  exact ⟨rfl, rfl⟩

/-! ### Code that completes -/

/-- The frame at a position between two runs of bytes. -/
def frameAt (before bytes : Bytes) (stack : List Value) (locals : Nat → Option Value) : Frame :=
  { code := before ++ bytes, position := before.length, stack, locals }

/-- Code in pieces completes when it is run to its end, from wherever it was called. -/
def Completes (P : Program) (code : List Piece) (a : Activation) (result? : Option Value)
    (h : Heap) : Prop :=
  ∀ (before bytes : Bytes) (frames : List Frame), Encodes P.pool code bytes →
    P.Reaches (running (frameAt before bytes a.stack a.locals :: frames) a.heap)
      (resume result? frames h)

namespace Completes

variable {P : Program} {code inner : List Piece} {stack stack' : List Value}
  {locals locals' : Nat → Option Value} {r r' : Option Value} {h h' h'' : Heap}

theorem calls {body : Code} {arguments : List Value} (hbody : Encodes P.pool code body.instructions)
    (hcode : P.Completes code ⟨[], localsOf arguments, h⟩ r h') :
    P.Calls body arguments h r h' :=
  hcode [] body.instructions [] hbody

/-- The first step of code that begins with an instruction. -/
theorem step?_frameAt {op : Op} {i : Instr} {frames : List Frame}
    (hop : op.instr? P.pool = some i) (before bytes : Bytes) :
    P.step? (running (frameAt before (op.bytes ++ bytes) stack locals :: frames) h) =
      P.execute? i op.bytes.length (frameAt before (op.bytes ++ bytes) stack locals) frames h := by
  have hdecode : Instr.decode? P.pool ((before ++ (op.bytes ++ bytes)).drop before.length) =
      some (i, op.bytes.length) := by
    rw [List.drop_left, Instr.decode?_bytes hop]
  unfold step? frameAt
  simp only [hdecode, Option.bind_eq_bind, Option.bind_some]

/-- A frame further on in the same code. -/
theorem frameAt_append (before bs bytes : Bytes) (stack : List Value)
    (locals : Nat → Option Value) :
    frameAt (before ++ bs) bytes stack locals =
      { code := before ++ (bs ++ bytes), position := before.length + bs.length, stack,
        locals } := by
  rw [frameAt, List.append_assoc, List.length_append]

/-- The first step of code that begins with an instruction that neither branches nor calls another
method of the class. -/
theorem step?_plain {op : Op} {i : Instr} {frames : List Frame} (hop : op.instr? P.pool = some i)
    (hcalled : P.called? i = none)
    (hrun : i.run? P.construct ⟨stack, locals, h⟩ = some ⟨stack', locals', h'⟩)
    (before bytes : Bytes) :
    P.step? (running (frameAt before (op.bytes ++ bytes) stack locals :: frames) h) =
      some (running (frameAt (before ++ op.bytes) bytes stack' locals' :: frames) h') := by
  rw [step?_frameAt hop, frameAt_append]
  -- the branches and the return are no instructions that `run?` completes
  cases i with
  | ifNonNull | ifGe | ret => cases hrun
  | _ =>
    simp only [execute?, hcalled, frameAt, hrun, Option.bind_eq_bind, Option.bind_some,
      Option.pure_def]

/-- An instruction that neither branches nor calls another method of the class. -/
theorem plain {i : Instr} (hcalled : P.called? i = none)
    (hrun : i.run? P.construct ⟨stack, locals, h⟩ = some ⟨stack', locals', h'⟩)
    (hrest : P.Completes code ⟨stack', locals', h'⟩ r h'') :
    P.Completes (.plain i :: code) ⟨stack, locals, h⟩ r h'' := by
  intro before bytes frames hbytes
  cases hbytes with
  | plain hop hbytes =>
    exact Reaches.head (step?_plain hop hcalled hrun before _) (hrest _ _ _ hbytes)

attribute [local simp] Instr.run?

/-- A call of a method of the library. -/
theorem native (n : Native) (hrun : n.run? stack h = some (stack', h'))
    (hrest : P.Completes code ⟨stack', locals, h'⟩ r h'') :
    P.Completes (.plain (.invoke n.kind n.ref) :: code) ⟨stack, locals, h⟩ r h'' := by
  have hcalled : P.called? (.invoke n.kind n.ref) = none := by
    unfold called?
    cases hkind : n.kind with
    | static =>
      have hfind : Native.find? .static n.ref = some n := hkind ▸ n.find?_ref
      simp [hfind]
    | _ => rfl
  refine plain hcalled ?_ hrest
  simp [n.find?_ref, hrun]

theorem load {type : ValueType} {i : Nat} {v : Value} (hv : locals i = some v)
    (htype : v.type = type) (hrest : P.Completes code ⟨v :: stack, locals, h⟩ r h') :
    P.Completes (.plain (.load type i) :: code) ⟨stack, locals, h⟩ r h' := by
  refine plain rfl ?_ hrest
  simp [hv, htype]

theorem getStatic {m : MemberRef} {v : Value} (hv : h.statics m = v)
    (hrest : P.Completes code ⟨v :: stack, locals, h⟩ r h') :
    P.Completes (.plain (.getStatic m) :: code) ⟨stack, locals, h⟩ r h' :=
  plain rfl (by simp [hv]) hrest

theorem getField {o : Nat} {m : MemberRef} {v : Value} (hv : h.field? o m = some v)
    (hrest : P.Completes code ⟨v :: stack, locals, h⟩ r h') :
    P.Completes (.plain (.getField m) :: code) ⟨.ref (some o) :: stack, locals, h⟩ r h' := by
  refine plain rfl ?_ hrest
  simp [hv]

theorem putField {o : Nat} {m : MemberRef} {v : Value} (hwrite : h.setField? o m v = some h')
    (hrest : P.Completes code ⟨stack, locals, h'⟩ r h'') :
    P.Completes (.plain (.putField m) :: code) ⟨v :: .ref (some o) :: stack, locals, h⟩ r h'' := by
  refine plain rfl ?_ hrest
  simp [hwrite]

/-- A call of another method of the class. -/
theorem call {i : Instr} {body : Code} {arguments : List Value}
    (hcalled : P.called? i = some (body, arguments.length))
    (hbody : Encodes P.pool inner body.instructions)
    (hinner : P.Completes inner ⟨[], localsOf arguments, h⟩ r h')
    (hrest : P.Completes code ⟨r.toList ++ stack, locals, h'⟩ r' h'') :
    P.Completes (.plain i :: code) ⟨arguments.reverse ++ stack, locals, h⟩ r' h'' := by
  intro before bytes frames hbytes
  cases hbytes with
  | @plain op _ _ bytes hop hbytes =>
    have hstep : P.step? (running
          (frameAt before (op.bytes ++ bytes) (arguments.reverse ++ stack) locals :: frames) h) =
        some (running (frameAt [] body.instructions [] (localsOf arguments) ::
          frameAt (before ++ op.bytes) bytes stack locals :: frames) h) := by
      rw [step?_frameAt hop, frameAt_append]
      cases i with
      | invoke =>
        have htake : (arguments.reverse ++ stack).take arguments.length = arguments.reverse := by
          rw [← List.length_reverse, List.take_left]
        have hdrop : (arguments.reverse ++ stack).drop arguments.length = stack := by
          rw [← List.length_reverse, List.drop_left]
        have hle : arguments.length ≤ (arguments.reverse ++ stack).length := by
          rw [List.length_append, List.length_reverse]
          omega
        simp only [execute?, hcalled, frameAt, if_pos hle, htake, hdrop, List.reverse_reverse]
        rfl
      | _ => cases hcalled
    -- the called method runs on top of the frame that called it, and leaves its result there
    have hreturn := hinner [] body.instructions
      (frameAt (before ++ op.bytes) bytes stack locals :: frames) hbody
    exact Reaches.head hstep (Reaches.trans hreturn (hrest _ _ _ hbytes))

/-- The first step of code that begins with a test. -/
theorem step?_branch {test : Test} {distance : Nat} {frames : List Frame}
    (hdistance : distance < 2 ^ 15) (before bytes : Bytes) :
    P.step? (running (frameAt before ((Op.half test.opcode (.ofNat distance)).bytes ++ bytes) stack
        locals :: frames) h) =
      (fun f => running (f :: frames) h) <$> branch?
        (frameAt before ((Op.half test.opcode (.ofNat distance)).bytes ++ bytes) stack locals) test
        distance 3 := by
  rw [step?_frameAt (test.instr?_half P.pool hdistance)]
  cases test <;> rfl

/-- A test that succeeds, with what it skips. -/
theorem skip {test : Test} {inside : List Instr} (htest : test.run? stack = some (true, stack'))
    (hrest : P.Completes code ⟨stack', locals, h⟩ r h') :
    P.Completes (.guarded test inside :: code) ⟨stack, locals, h⟩ r h' := by
  intro before bytes frames hbytes
  cases hbytes with
  | @guarded _ _ skipped _ bytes hskipped hlen hbytes =>
    have hnext := hrest (before ++ ((Op.half test.opcode (.ofNat (3 + skipped.length))).bytes ++
      skipped)) bytes frames hbytes
    have hstep : P.step? (running (frameAt before
          ((Op.half test.opcode (.ofNat (3 + skipped.length))).bytes ++ (skipped ++ bytes)) stack
          locals :: frames) h) =
        some (running (frameAt (before ++ ((Op.half test.opcode
          (.ofNat (3 + skipped.length))).bytes ++ skipped)) bytes stack' locals :: frames) h) := by
      -- the target of the branch lies behind what it skips
      have hforward : (0 : Int) ≤ before.length + (3 + skipped.length : Nat) := by omega
      have htarget : ((before.length : Int) + (3 + skipped.length : Nat)).toNat =
          before.length + (3 + skipped.length) := by omega
      have hlength : ((Op.half test.opcode (.ofNat (3 + skipped.length))).bytes ++
          skipped).length = 3 + skipped.length := by
        rw [List.length_append]
        rfl
      rw [step?_branch hlen, branch?, frameAt_append, hlength, List.append_assoc]
      simp only [frameAt, htest, Option.bind_eq_bind, Option.bind_some, if_pos hforward, htarget]
      rfl
    exact Reaches.head hstep hnext

/-- A test that fails, with what it does not skip. -/
theorem enter {test : Test} {inside : List Instr} (htest : test.run? stack = some (false, stack'))
    (hrest : P.Completes (inside.map .plain ++ code) ⟨stack', locals, h⟩ r h') :
    P.Completes (.guarded test inside :: code) ⟨stack, locals, h⟩ r h' := by
  intro before bytes frames hbytes
  cases hbytes with
  | @guarded _ _ skipped _ bytes hskipped hlen hbytes =>
    have hnext := hrest (before ++ (Op.half test.opcode (.ofNat (3 + skipped.length))).bytes)
      (skipped ++ bytes) frames (hskipped.append hbytes)
    have hstep : P.step? (running (frameAt before
          ((Op.half test.opcode (.ofNat (3 + skipped.length))).bytes ++ (skipped ++ bytes)) stack
          locals :: frames) h) =
        some (running (frameAt (before ++ (Op.half test.opcode (.ofNat (3 + skipped.length))).bytes)
          (skipped ++ bytes) stack' locals :: frames) h) := by
      rw [step?_branch hlen, branch?, frameAt_append]
      simp only [frameAt, htest]
      rfl
    exact Reaches.head hstep hnext

/-- The end of code without a result. -/
theorem ret_none : P.Completes [.plain (.ret none)] ⟨stack, locals, h⟩ none h := by
  intro before bytes frames hbytes
  cases hbytes with
  | plain hop _ => exact Relation.ReflTransGen.single (step?_frameAt hop before _)

/-- The end of code with a result. -/
theorem ret {type : ValueType} {v : Value} (htype : v.type = type) :
    P.Completes [.plain (.ret (some type))] ⟨v :: stack, locals, h⟩ (some v) h := by
  intro before bytes frames hbytes
  cases hbytes with
  | @plain op _ _ bytes hop _ =>
    have hstep : P.execute? (.ret (some type)) op.bytes.length
        (frameAt before (op.bytes ++ bytes) (v :: stack) locals) frames h =
          some (resume (some v) frames h) := by
      simp only [execute?, frameAt, if_pos htype]
    exact Relation.ReflTransGen.single ((step?_frameAt hop before _).trans hstep)

end Completes

/-! ### Code that leaves nothing behind -/

/-- Calling a method with a body on some arguments gets to a return without a result, where nothing
is left on the operand stack. -/
def Drains (P : Program) (body : Code) (arguments : List Value) (h h' : Heap) : Prop :=
  ∃ f : Frame, f.stack = [] ∧
    P.Reaches (running [Frame.start body.instructions arguments] h) (running [f] h') ∧
    P.step? (running [f] h') = some (done none h')

/-- Code in pieces that gets to such a return, from wherever it was called. -/
def CodeDrains (P : Program) (code : List Piece) (a : Activation) (h : Heap) : Prop :=
  ∀ (before bytes : Bytes) (frames : List Frame), Encodes P.pool code bytes →
    ∃ f : Frame, f.stack = [] ∧
      P.Reaches (running (frameAt before bytes a.stack a.locals :: frames) a.heap)
        (running (f :: frames) h) ∧
      P.step? (running (f :: frames) h) = some (resume none frames h)

namespace CodeDrains

variable {P : Program} {code : List Piece} {stack stack' : List Value}
  {locals locals' : Nat → Option Value} {h h' h'' : Heap}

theorem drains {body : Code} {arguments : List Value}
    (hbody : Encodes P.pool code body.instructions)
    (hcode : P.CodeDrains code ⟨[], localsOf arguments, h⟩ h') : P.Drains body arguments h h' :=
  hcode [] body.instructions [] hbody

theorem plain {i : Instr} (hcalled : P.called? i = none)
    (hrun : i.run? P.construct ⟨stack, locals, h⟩ = some ⟨stack', locals', h'⟩)
    (hrest : P.CodeDrains code ⟨stack', locals', h'⟩ h'') :
    P.CodeDrains (.plain i :: code) ⟨stack, locals, h⟩ h'' := by
  intro before bytes frames hbytes
  cases hbytes with
  | plain hop hbytes =>
    obtain ⟨f, hf, hreach, hreturn⟩ := hrest _ _ frames hbytes
    exact ⟨f, hf, Reaches.head (Completes.step?_plain hop hcalled hrun before _) hreach, hreturn⟩

theorem ret : P.CodeDrains [.plain (.ret none)] ⟨[], locals, h⟩ h := by
  intro before bytes frames hbytes
  cases hbytes with
  | plain hop _ => exact ⟨_, rfl, .refl, Completes.step?_frameAt hop before _⟩

end CodeDrains

end Program

end ClassWeave
