import ClassWeave.Proofs.Descriptor
import ClassWeave.Proofs.Machine.Instr
import Mathlib.Algebra.GroupWithZero.Nat

/-!
# The types in descriptors

A verifier knows the values on the operand stack by their types, and takes the types of fields,
parameters and results from descriptors.  It reads these strictly: a class name ends at the first
`;`, and has no `[` in it.

* `Descriptor.types?` : the types that a run of descriptors tells, up to its end or a bracket.
* `Descriptor.fieldType?`, `Descriptor.signature?` : the type of a field, and the types of the
  parameters and the result of a method.
* `ValueKind.Plain`, `Descriptor.types?_of_parse` : the descriptor of a kind tells its type, if
  class names are plain.
* `Descriptor.slots_of_parse` : and in any case how many places its values take.
* `Instr.effect` : what an instruction adds to the depth of the operand stack.
-/

namespace ClassWeave

namespace ValueType

/-- The places of the operand stack that a value of the type takes. -/
def slots : ValueType → Nat
  | long | double => 2
  | _ => 1

/-- The places that values of these types take together. -/
def slotsOf (types : List ValueType) : Nat := (types.map slots).sum

end ValueType

/-- A kind takes as many places as its type. -/
theorem ValueKind.slots_type (kind : ValueKind) : kind.type.slots = kind.slots := by
  cases kind <;> rfl

/-! ### Reading descriptors -/

namespace Descriptor

/-- Where a walk over descriptors stands. -/
inductive Place where
  /-- Between two descriptors. -/
  | between
  /-- In a class name. -/
  | inName
  /-- Behind the brackets of an array. -/
  | inArray
  deriving DecidableEq, Repr

/-- The type of a letter that is a descriptor of its own. -/
def letterType? : Char → Option ValueType
  | 'Z' | 'B' | 'C' | 'S' | 'I' => some .int
  | 'F' => some .float
  | 'J' => some .long
  | 'D' => some .double
  | _ => none

/-- One more type in front. -/
def following (type : ValueType) (read? : Option (List ValueType × List Char)) :
    Option (List ValueType × List Char) :=
  read?.map fun read => (type :: read.1, read.2)

/-- The types that descriptors in a row tell, up to the end or a closing bracket, and what is left.
An array is a reference, whatever its elements are. -/
def types? : Place → List Char → Option (List ValueType × List Char)
  | .between, [] => some ([], [])
  | .inName, [] | .inArray, [] => none
  | .between, ')' :: rest => some ([], ')' :: rest)
  | .inName, c :: rest =>
    if c = ';' then following .ref (types? .between rest)
    else if c = '[' then none
    else types? .inName rest
  | place, c :: rest =>
    if c = '[' then types? .inArray rest
    else if c = 'L' then if rest.head? = some ';' then none else types? .inName rest
    else match letterType? c with
      | some type => following (if place = .inArray then .ref else type) (types? .between rest)
      | none => none

/-- The type of the field with a descriptor. -/
def fieldType? (descriptor : String) : Option ValueType :=
  match types? .between descriptor.toList with
  | some ([type], []) => some type
  | _ => none

/-- The types of the parameters and of the result of a method. -/
structure Signature where
  /-- The parameters in their order. -/
  parameters : List ValueType
  /-- The result, if there is one. -/
  result? : Option ValueType
  deriving DecidableEq, Repr

/-- The signature of the method with a descriptor. -/
def signature? (descriptor : String) : Option Signature :=
  match descriptor.toList with
  | '(' :: cs =>
    match types? .between cs with
    | some (parameters, ')' :: rest) =>
      if rest = ['V'] then some { parameters, result? := none }
      else match types? .between rest with
        | some ([type], []) => some { parameters, result? := some type }
        | _ => none
    | _ => none
  | _ => none

/-! ### Kinds -/

/-- Within a class name, or behind brackets, a reference comes next. -/
theorem exists_ref_of_types? {place : Place} (hplace : place ≠ .between) {cs rest : List Char}
    {types : List ValueType} (h : types? place cs = some (types, rest)) :
    ∃ types', types = .ref :: types' := by
  induction cs generalizing place with
  | nil => cases place <;> simp_all [types?]
  | cons c cs ih =>
    have hfollowing {read? : Option (List ValueType × List Char)}
        (h : following .ref read? = some (types, rest)) : ∃ types', types = .ref :: types' := by
      obtain ⟨read, -, hread⟩ := Option.map_eq_some_iff.1 h
      exact ⟨read.1, (congrArg Prod.fst hread).symm⟩
    cases place with
    | between => exact absurd rfl hplace
    | inName =>
      unfold types? at h
      split_ifs at h
      · exact hfollowing h
      · exact ih (by decide) h
    | inArray =>
      unfold types? at h
      split_ifs at h
      · exact ih (by decide) h
      · exact ih (by decide) h
      · split at h
        · exact hfollowing h
        · cases h
      · rename_i hnot
        exact absurd rfl hnot

theorem types?_inName {name : List Char} (hname : ∀ c ∈ name, c ≠ ';' ∧ c ≠ '[')
    (rest : List Char) :
    types? .inName (name ++ ';' :: rest) = following .ref (types? .between rest) := by
  induction name with
  | nil => rfl
  | cons c name ih =>
    obtain ⟨⟨hend, hbracket⟩, hname⟩ := List.forall_mem_cons.1 hname
    rw [List.cons_append, types?, if_neg hend, if_neg hbracket, ih hname]

end Descriptor

namespace ValueKind

/-- The class that a kind names: that of an object, or of the elements of an array. -/
def className? : ValueKind → Option String
  | object name => some name
  | array descriptor =>
    match ofElement? (descriptor.toList.dropWhile (· == '[')) with
    | some (object name) => some name
    | _ => none
  | _ => none

/-- A class name can be told from what surrounds it in a descriptor. -/
def Plain (kind : ValueKind) : Prop :=
  ∀ name, kind.className? = some name → ∀ c ∈ name.toList, c ≠ ';' ∧ c ≠ '['

end ValueKind

namespace Descriptor

open ValueKind (ofElement?)

/-- A kind that is no array tells its type, or that of an array behind brackets. -/
theorem types?_of_ofElement? {cs : List Char} {kind : ValueKind} (h : ofElement? cs = some kind)
    (hplain : kind.Plain) {place : Place} (hplace : place ≠ .inName) (rest : List Char) :
    types? place (cs ++ rest) =
      following (if place = .inArray then .ref else kind.type) (types? .between rest) := by
  unfold ofElement? at h
  split at h
  case h_9 body =>
    split at h
    · rename_i hbody
      cases h
      obtain ⟨name, rfl⟩ := List.getLast?_eq_some_iff.1 hbody.1
      rw [List.dropLast_concat] at hplain
      have hname : ∀ c ∈ name, c ≠ ';' ∧ c ≠ '[' := by
        simpa using hplain (String.ofList name) rfl
      obtain ⟨c, name', rfl⟩ : ∃ c name', name = c :: name' := by
        cases name with
        | nil => simp at hbody
        | cons c name' => exact ⟨c, name', rfl⟩
      have hread := types?_inName hname rest
      have hfirst : c ≠ ';' := (hname c List.mem_cons_self).1
      cases place with
      | inName => exact absurd rfl hplace
      | between | inArray => simpa [types?, hfirst, ValueKind.type] using hread
    · cases h
  case h_10 => cases h
  all_goals
    cases h
    cases place with
    | inName => exact absurd rfl hplace
    | between | inArray => rfl

theorem types?_brackets {brackets : List Char} (h : ∀ c ∈ brackets, c = '[') (cs : List Char) :
    types? .inArray (brackets ++ cs) = types? .inArray cs := by
  induction brackets with
  | nil => rfl
  | cons c brackets ih =>
    obtain ⟨rfl, hrest⟩ := List.forall_mem_cons.1 h
    exact ih hrest

/-- The elements of an array are of a plain kind if the array is. -/
theorem plain_of_array {text : String} {element : ValueKind}
    (helement : ofElement? (text.toList.dropWhile (· == '[')) = some element)
    (h : (ValueKind.array text).Plain) : element.Plain := by
  intro name hname
  refine h name ?_
  rw [ValueKind.className?, helement]
  cases element with
  | object => exact hname
  | array =>
    unfold ofElement? at helement
    split at helement
    case h_9 =>
      split at helement <;> cases helement
    all_goals cases helement
  | _ => cases hname

/-- **A kind tells its type**, with anything behind it. -/
theorem types?_of_parse {text : String} {kind : ValueKind} (h : ValueKind.parse text = .ok kind)
    (hplain : kind.Plain) (rest : List Char) :
    types? .between (text.toList ++ rest) = following kind.type (types? .between rest) := by
  rcases ValueKind.cases_of_parse h with helement | ⟨rfl, brackets, element, hbrackets, htext, h⟩
  · exact types?_of_ofElement? helement hplain (by decide) rest
  · have hread := types?_of_ofElement? h (plain_of_array h hplain)
      (by decide : Place.inArray ≠ .inName) rest
    rw [htext, List.append_assoc, List.cons_append]
    show types? .inArray (brackets ++ _) = _
    rw [types?_brackets hbrackets, hread]
    rfl

attribute [local simp] types? fieldType? signature?

/-- The descriptor of a plain kind tells its type. -/
theorem fieldType?_of_parse {text : String} {kind : ValueKind}
    (h : ValueKind.parse text = .ok kind) (hplain : kind.Plain) :
    fieldType? text = some kind.type := by
  have hread := types?_of_parse h hplain []
  rw [List.append_nil] at hread
  simp [hread, following]

/-- The signature of a method that gives a value. -/
theorem signature?_giving {text : String} {kind : ValueKind} (h : ValueKind.parse text = .ok kind)
    (hplain : kind.Plain) :
    signature? ("()" ++ text) = some { parameters := [], result? := some kind.type } := by
  have hread := types?_of_parse h hplain []
  rw [List.append_nil] at hread
  have hne : text.toList ≠ ['V'] := by
    intro heq
    rw [heq] at hread
    cases hread
  have hlist : ("()" ++ text).toList = '(' :: ')' :: text.toList := by
    simp [String.toList_append]
  rw [signature?, hlist]
  simp only [types?, if_neg hne, hread]
  rfl

/-- A method that takes nothing has no parameters, whatever it gives. -/
theorem parameters_giving (text : String) :
    ((signature? ("()" ++ text)).map (·.parameters)).getD [] = [] := by
  have hlist : ("()" ++ text).toList = '(' :: ')' :: text.toList := by
    simp [String.toList_append]
  rw [signature?, hlist]
  simp only [types?]
  split
  · rfl
  · split <;> rfl

/-- The signature of a method that takes a value. -/
theorem signature?_taking {text : String} {kind : ValueKind} (h : ValueKind.parse text = .ok kind)
    (hplain : kind.Plain) :
    signature? ("(" ++ text ++ ")V") = some { parameters := [kind.type], result? := none } := by
  have hread := types?_of_parse h hplain [')', 'V']
  have hlist : ("(" ++ text ++ ")V").toList = '(' :: (text.toList ++ [')', 'V']) := by
    simp [String.toList_append]
  rw [signature?, hlist]
  simp only [hread]
  rfl

/-- What starts like a reference tells a reference, if anything. -/
theorem slots_of_reference {text : String} {c : Char} {cs : List Char}
    (htext : text.toList = c :: cs) (hc : c = '[' ∨ c = 'L') :
    ((fieldType? text).getD .ref).slots = 1 := by
  have hname : types? .between ('L' :: cs) =
      if cs.head? = some ';' then none else types? .inName cs := rfl
  rw [fieldType?, htext]
  split
  · rename_i type hread
    have hfirst : ∃ types', [type] = .ref :: types' := by
      rcases hc with rfl | rfl
      · exact exists_ref_of_types? (by decide : Place.inArray ≠ .between) hread
      · rw [hname] at hread
        split at hread
        · cases hread
        · exact exists_ref_of_types? (by decide : Place.inName ≠ .between) hread
    obtain ⟨_, htypes⟩ := hfirst
    cases htypes
    rfl
  · rfl

/-- A descriptor tells how many places a value of its kind takes: where it tells no type, its values
are references. -/
theorem slots_of_parse {text : String} {kind : ValueKind} (h : ValueKind.parse text = .ok kind) :
    ((fieldType? text).getD .ref).slots = kind.slots := by
  rcases ValueKind.cases_of_parse h with helement | ⟨rfl, brackets, element, -, htext, -⟩
  · unfold ofElement? at helement
    split at helement
    case h_9 htext =>
      split at helement
      · cases helement
        exact slots_of_reference htext (.inr rfl)
      · cases helement
    case h_10 => cases helement
    all_goals
      rename_i htext
      cases helement
      rw [fieldType?, htext]
      rfl
  · exact slots_of_reference htext (.inl rfl)

end Descriptor

/-! ### Instructions -/

/-- What an instruction adds to the depth of the operand stack.  A field counts as a reference if
its descriptor tells no type, and a method as one that takes and gives nothing. -/
def Instr.effect : Instr → Int
  | push value => value.type.slots
  | load type _ => type.slots
  | store type _ => -type.slots
  | pop => -1
  | dup => 1
  | add | mul => -1
  | getStatic m => ((Descriptor.fieldType? m.descriptor).getD .ref).slots
  | putStatic m => -((Descriptor.fieldType? m.descriptor).getD .ref).slots
  | getField m => ((Descriptor.fieldType? m.descriptor).getD .ref).slots - 1
  | putField m => -1 - ((Descriptor.fieldType? m.descriptor).getD .ref).slots
  | invoke kind m =>
    let signature := (Descriptor.signature? m.descriptor).getD ⟨[], none⟩
    ValueType.slotsOf signature.result?.toList - ValueType.slotsOf signature.parameters -
      (if kind = .static then 0 else 1)
  | new _ => 1
  | ifNonNull _ => -1
  | ifGe _ => -2
  | ret type? => -ValueType.slotsOf type?.toList

namespace Instr

variable {m : MemberRef}

attribute [local simp] effect

section

variable {type : ValueType} (h : Descriptor.fieldType? m.descriptor = some type)
include h

theorem effect_getStatic : (getStatic m).effect = type.slots := by simp [h]

theorem effect_putStatic : (putStatic m).effect = -type.slots := by simp [h]

theorem effect_getField : (getField m).effect = type.slots - 1 := by simp [h]

theorem effect_putField : (putField m).effect = -1 - type.slots := by simp [h]

end

theorem effect_invoke {kind : CallKind} {signature : Descriptor.Signature}
    (h : Descriptor.signature? m.descriptor = some signature) : (invoke kind m).effect =
      ValueType.slotsOf signature.result?.toList - ValueType.slotsOf signature.parameters -
        (if kind = .static then 0 else 1) := by
  simp [h]

end Instr

end ClassWeave
