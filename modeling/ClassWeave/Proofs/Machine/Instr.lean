import ClassWeave.Body.Basic
import ClassWeave.Proofs.Pool.Growth

/-!
# Instructions of a small machine

Generated bodies use few instructions.  Here they are decoded from their bytes, with the slot that
an instruction refers to looked up in the pool.

* `Value`, `ValueType` : what the operand stack and the local variables hold.
* `Instr`, `Instr.decode?` : an instruction with its operand looked up, and the instruction in front
  of a run of bytes.
* `Op`, `Op.instr?` : an instruction as it is emitted, and what it is decoded to; that stays the
  same in a growing pool.
-/

namespace ClassWeave

/-- The types of values that the machine tells apart. -/
inductive ValueType where
  | int
  | long
  | float
  | double
  | ref
  deriving DecidableEq, Repr

/-- What a place of the operand stack or a local variable holds.  Floating point numbers are kept as
their bits, and objects as numbers. -/
inductive Value where
  | int (value : Int32)
  | long (value : Int64)
  | float (bits : UInt32)
  | double (bits : UInt64)
  /-- An object, or null. -/
  | ref (target? : Option Nat)
  deriving DecidableEq, Repr

namespace Value

/-- The type of a value. -/
def type : Value → ValueType
  | int _ => .int
  | long _ => .long
  | float _ => .float
  | double _ => .double
  | ref _ => .ref

/-- A value of 64 bits takes two slots, and cannot be dropped or doubled by the short forms. -/
def isWide : Value → Bool
  | long _ | double _ => true
  | _ => false

/-- The null reference. -/
def null : Value := ref none

end Value

/-- The value of a type that fields start with. -/
def ValueType.zero : ValueType → Value
  | int => .int 0
  | long => .long 0
  | float => .float 0
  | double => .double 0
  | ref => .null

/-- The type of the values of a kind. -/
def ValueKind.type : ValueKind → ValueType
  | boolean | byte | char | short | int => .int
  | float => .float
  | long => .long
  | double => .double
  | object _ | array _ => .ref

/-- How a method is called. -/
inductive CallKind where
  | virtual
  | special
  | static
  deriving DecidableEq, Repr

/-- An instruction, with what its operand refers to. -/
inductive Instr where
  /-- Push a value. -/
  | push (value : Value)
  /-- Push a local variable of a type. -/
  | load (type : ValueType) (index : Nat)
  /-- Put the top of the stack into a local variable of a type. -/
  | store (type : ValueType) (index : Nat)
  /-- Drop the top of the stack. -/
  | pop
  /-- Push the top of the stack again. -/
  | dup
  /-- Add two integers. -/
  | add
  /-- Multiply two integers. -/
  | mul
  /-- Read a static field. -/
  | getStatic (field : MemberRef)
  /-- Write a static field. -/
  | putStatic (field : MemberRef)
  /-- Read a field of an object. -/
  | getField (field : MemberRef)
  /-- Write a field of an object. -/
  | putField (field : MemberRef)
  /-- Call a method. -/
  | invoke (kind : CallKind) (method : MemberRef)
  /-- Create an object of a class. -/
  | new (className : String)
  /-- Jump if a reference is not null. -/
  | ifNonNull (distance : Int)
  /-- Jump if one integer is at least another. -/
  | ifGe (distance : Int)
  /-- Return a value of a type, or nothing. -/
  | ret (type? : Option ValueType)
  deriving DecidableEq, Repr

namespace Instr

/-- The instruction of an opcode that stands alone. -/
def ofOpcode? (opcode : UInt8) : Option Instr :=
  if opcode = Opcode.aconstNull then some (push .null)
  else if Opcode.iconstM1.toNat ≤ opcode.toNat ∧ opcode.toNat ≤ Opcode.iconstM1.toNat + 6 then
    some (push (.int (.ofInt (opcode.toNat - Opcode.iconst0.toNat))))
  else if opcode = Opcode.lconst0 then some (push (.long 0))
  else if opcode = Opcode.fconst0 then some (push (.float 0))
  else if opcode = Opcode.dconst0 then some (push (.double 0))
  else if opcode = Opcode.iload0 then some (load .int 0)
  else if opcode = Opcode.iload1 then some (load .int 1)
  else if opcode = Opcode.lload1 then some (load .long 1)
  else if opcode = Opcode.fload1 then some (load .float 1)
  else if opcode = Opcode.dload1 then some (load .double 1)
  else if opcode = Opcode.aload0 then some (load .ref 0)
  else if opcode = Opcode.aload1 then some (load .ref 1)
  else if opcode = Opcode.istore1 then some (store .int 1)
  else if opcode = Opcode.pop then some pop
  else if opcode = Opcode.dup then some dup
  else if opcode = Opcode.iadd then some add
  else if opcode = Opcode.imul then some mul
  else if opcode = Opcode.ireturn then some (ret (some .int))
  else if opcode = Opcode.lreturn then some (ret (some .long))
  else if opcode = Opcode.freturn then some (ret (some .float))
  else if opcode = Opcode.dreturn then some (ret (some .double))
  else if opcode = Opcode.areturn then some (ret (some .ref))
  else if opcode = Opcode.returnVoid then some (ret none)
  else none

/-- The constant that a slot holds, as a value to push. -/
def constantAt? (pool : ConstantPool) (index : UInt16) : Option Value :=
  match pool.get? index with
  | some (.integer value) => some (.int value)
  | _ => none

/-- The instruction of an opcode with a half word behind it. -/
def ofHalf? (pool : ConstantPool) (opcode : UInt8) (operand : UInt16) : Option Instr :=
  if opcode = Opcode.sipush then some (push (.int (.ofInt (Int.bmod operand.toNat 65536))))
  else if opcode = Opcode.ldcW then push <$> constantAt? pool operand
  else if opcode = Opcode.getStatic then getStatic <$> pool.fieldAt? operand
  else if opcode = Opcode.putStatic then putStatic <$> pool.fieldAt? operand
  else if opcode = Opcode.getField then getField <$> pool.fieldAt? operand
  else if opcode = Opcode.putField then putField <$> pool.fieldAt? operand
  else if opcode = Opcode.invokeVirtual then invoke .virtual <$> pool.methodAt? operand
  else if opcode = Opcode.invokeSpecial then invoke .special <$> pool.methodAt? operand
  else if opcode = Opcode.invokeStatic then invoke .static <$> pool.methodAt? operand
  else if opcode = Opcode.new then new <$> (pool.className operand).toOption
  else if opcode = Opcode.ifNonNull then some (ifNonNull (Int.bmod operand.toNat 65536))
  else if opcode = Opcode.ifIcmpge then some (ifGe (Int.bmod operand.toNat 65536))
  else none

/-- The instruction in front of a run of bytes, and its length. -/
def decode? (pool : ConstantPool) : Bytes → Option (Instr × Nat)
  | [] => none
  | opcode :: rest =>
    match ofOpcode? opcode with
    | some i => some (i, 1)
    | none =>
      match rest with
      | [] => none
      | first :: rest =>
        if opcode = Opcode.bipush then
          some (push (.int (.ofInt (Int.bmod first.toNat 256))), 2)
        else
          match rest with
          | [] => none
          | second :: _ =>
            (·, 3) <$> ofHalf? pool opcode (UInt16.ofNat (BigEndian.decode [first, second]))

end Instr

/-- An instruction as it is emitted. -/
inductive Op where
  /-- An opcode alone. -/
  | plain (opcode : UInt8)
  /-- An opcode with a byte. -/
  | byte (opcode operand : UInt8)
  /-- An opcode with a half word. -/
  | half (opcode : UInt8) (operand : UInt16)
  deriving DecidableEq, Repr

namespace Op

/-- The bytes of an instruction. -/
def bytes : Op → Bytes
  | plain opcode => [opcode]
  | byte opcode operand => [opcode, operand]
  | half opcode operand => opcode :: bytes16 operand

/-- What an emitted instruction is decoded to. -/
def instr? (pool : ConstantPool) : Op → Option Instr
  | plain opcode => Instr.ofOpcode? opcode
  | byte opcode operand =>
    if opcode = Opcode.bipush then some (.push (.int (.ofInt (Int.bmod operand.toNat 256))))
    else none
  | half opcode operand => Instr.ofHalf? pool opcode operand

end Op

namespace Instr

/-- The opcodes that have a half word behind them. -/
def halfOpcodes : List UInt8 :=
  [Opcode.sipush, Opcode.ldcW, Opcode.getStatic, Opcode.putStatic, Opcode.getField,
    Opcode.putField, Opcode.invokeVirtual, Opcode.invokeSpecial, Opcode.invokeStatic, Opcode.new,
    Opcode.ifNonNull, Opcode.ifIcmpge]

theorem mem_halfOpcodes {pool : ConstantPool} {opcode : UInt8} {operand : UInt16} {i : Instr}
    (h : ofHalf? pool opcode operand = some i) : opcode ∈ halfOpcodes := by
  unfold ofHalf? at h
  simp only [halfOpcodes, List.mem_cons, List.not_mem_nil, or_false]
  grind

theorem ofOpcode?_of_mem : ∀ opcode ∈ halfOpcodes,
    ofOpcode? opcode = none ∧ opcode ≠ Opcode.bipush := by
  decide +kernel

/-- An emitted instruction is decoded from the front of its bytes. -/
theorem decode?_bytes {pool : ConstantPool} {op : Op} {i : Instr} (h : op.instr? pool = some i)
    (rest : Bytes) : decode? pool (op.bytes ++ rest) = some (i, op.bytes.length) := by
  cases op with
  | plain opcode =>
    have h : ofOpcode? opcode = some i := h
    simp [Op.bytes, decode?, h]
  | byte opcode operand =>
    simp only [Op.instr?] at h
    split at h
    · rename_i hopcode
      cases h
      subst hopcode
      have hplain : ofOpcode? Opcode.bipush = none := by decide
      simp [Op.bytes, decode?, hplain]
    · cases h
  | half opcode operand =>
    have h : ofHalf? pool opcode operand = some i := h
    obtain ⟨hplain, hbipush⟩ := ofOpcode?_of_mem opcode (mem_halfOpcodes h)
    have hoperand := ofNat_decode_bytes16 operand
    obtain ⟨high, low, hbytes⟩ : ∃ high low, bytes16 operand = [high, low] := ⟨_, _, rfl⟩
    rw [hbytes] at hoperand
    simp [Op.bytes, decode?, hplain, hbipush, hbytes, hoperand, h]

theorem ite_mono {α : Type} {c : Prop} [Decidable c] {a a' b b' : Option α} {i : α}
    (ha : c → a = some i → a' = some i) (hb : ¬ c → b = some i → b' = some i) :
    (if c then a else b) = some i → (if c then a' else b') = some i := by
  by_cases hc : c
  · simpa only [if_pos hc] using ha hc
  · simpa only [if_neg hc] using hb hc

theorem map_mono {α β : Type} {f : α → β} {a a' : Option α} {i : β}
    (h : ∀ v, a = some v → a' = some v) : f <$> a = some i → f <$> a' = some i := by
  cases a with
  | none => exact fun hi => nomatch hi
  | some v => rw [h v rfl]; exact id

theorem ofHalf?_mono {p q : ConstantPool} (h : p.Extends q) {opcode : UInt8} {operand : UInt16}
    {i : Instr} (hi : ofHalf? p opcode operand = some i) : ofHalf? q opcode operand = some i := by
  have hconstant : ∀ v, constantAt? p operand = some v → constantAt? q operand = some v := by
    intro v hv
    unfold constantAt? at hv ⊢
    split at hv
    · rename_i value hvalue
      rw [h.get? hvalue]
      exact hv
    · cases hv
  have hfield : ∀ m, p.fieldAt? operand = some m → q.fieldAt? operand = some m :=
    fun m => h.refAt?
  have hmethod : ∀ m, p.methodAt? operand = some m → q.methodAt? operand = some m :=
    fun m => h.refAt?
  have hclass : ∀ n, (p.className operand).toOption = some n →
      (q.className operand).toOption = some n := by
    intro n hn
    cases hname : p.className operand with
    | error => simp [hname, Except.toOption] at hn
    | ok name => rwa [h.className hname, ← hname]
  revert hi
  unfold ofHalf?
  have hsame {o : Option Instr} {P : Prop} (_ : P) : o = some i → o = some i := id
  exact ite_mono hsame fun _ => ite_mono (fun _ => map_mono hconstant) fun _ =>
    ite_mono (fun _ => map_mono hfield) fun _ => ite_mono (fun _ => map_mono hfield) fun _ =>
    ite_mono (fun _ => map_mono hfield) fun _ => ite_mono (fun _ => map_mono hfield) fun _ =>
    ite_mono (fun _ => map_mono hmethod) fun _ => ite_mono (fun _ => map_mono hmethod) fun _ =>
    ite_mono (fun _ => map_mono hmethod) fun _ => ite_mono (fun _ => map_mono hclass) fun _ =>
    ite_mono hsame fun _ => ite_mono hsame hsame

end Instr

theorem Op.instr?_mono {p q : ConstantPool} (h : p.Extends q) {op : Op} {i : Instr}
    (hi : op.instr? p = some i) : op.instr? q = some i := by
  cases op with
  | plain | byte => exact hi
  | half => exact Instr.ofHalf?_mono h hi

end ClassWeave
