import ClassWeave.Bytes.BigEndian
import ClassWeave.Proofs.Machine.Instr

/-!
# The heap of a small machine

Objects are numbered as they are created, and never go away.  An object is an instance of a class,
with its fields, or a buffer of bytes.

* `Object`, `Heap` : the state that methods share.
* `Heap.field?`, `class?`, `buffer?` : looking at objects.
* `Heap.setField?`, `put`, `add` : changing objects and adding one, with what stays as it was.
* `Heap.SameInstances` : only buffers and static fields may differ.
-/

namespace ClassWeave

/-- A buffer of bytes, and the position from which it is copied or filled. -/
structure Buffer where
  /-- The contents. -/
  bytes : Bytes
  /-- The position. -/
  position : Nat
  deriving DecidableEq, Repr

/-- What a number in a reference stands for. -/
inductive Object where
  /-- An instance of a class, with the values of its fields. -/
  | ofClass (className : String) (fields : MemberRef → Value)
  /-- A buffer. -/
  | buffer (b : Buffer)

namespace Object

/-- The class of an instance. -/
def class? : Object → Option String
  | ofClass className _ => some className
  | buffer _ => none

/-- A field of an instance. -/
def field? (m : MemberRef) : Object → Option Value
  | ofClass _ fields => some (fields m)
  | buffer _ => none

/-- An instance with another value in a field. -/
def setField? (m : MemberRef) (v : Value) : Object → Option Object
  | ofClass className fields =>
    some (ofClass className fun m' => if m' = m then v else fields m')
  | buffer _ => none

/-- The buffer, if the object is one. -/
def buffer? : Object → Option Buffer
  | ofClass _ _ => none
  | buffer b => some b

end Object

/-- The state that methods share. -/
structure Heap where
  /-- The objects, by their numbers. -/
  objects : List Object
  /-- The static fields of all classes. -/
  statics : MemberRef → Value

/-- The value that a field of a descriptor starts with. -/
def Value.initial (descriptor : String) : Value :=
  match descriptor.toList with
  | 'J' :: _ => .long 0
  | 'F' :: _ => .float 0
  | 'D' :: _ => .double 0
  | 'L' :: _ | '[' :: _ => .null
  | _ => .int 0

namespace Heap

variable (h : Heap)

/-- The class of an object. -/
def class? (o : Nat) : Option String := h.objects[o]?.bind Object.class?

/-- A field of an object. -/
def field? (o : Nat) (m : MemberRef) : Option Value := h.objects[o]?.bind (Object.field? m)

/-- A buffer. -/
def buffer? (o : Nat) : Option Buffer := h.objects[o]?.bind Object.buffer?

/-- The heap with another object in place of one. -/
def put (o : Nat) (object : Object) : Heap := { h with objects := h.objects.set o object }

/-- The heap with another value in a field of an object. -/
def setField? (o : Nat) (m : MemberRef) (v : Value) : Option Heap :=
  h.put o <$> h.objects[o]?.bind (Object.setField? m v)

/-- The heap with another value in a static field. -/
def setStatic (m : MemberRef) (v : Value) : Heap :=
  { h with statics := fun m' => if m' = m then v else h.statics m' }

/-- The number of a new object, and the heap with it. -/
def add (object : Object) : Nat × Heap :=
  (h.objects.length, { h with objects := h.objects ++ [object] })

/-- A new instance of a class, with its fields as they start. -/
def create (className : String) : Nat × Heap :=
  h.add (.ofClass className fun m => Value.initial m.descriptor)

/-! ### What changes and what stays -/

section

variable {h} {h' : Heap} {o : Nat} {m : MemberRef} {v : Value} {object : Object}

theorem length_put (h : Heap) (o : Nat) (object : Object) :
    (h.put o object).objects.length = h.objects.length :=
  List.length_set

/-- What is found at an object after another was put in place of one. -/
theorem bind_put {β : Type} (look : Object → Option β) (ho : o < h.objects.length) (o' : Nat) :
    (h.put o object).objects[o']?.bind look =
      if o' = o then look object else h.objects[o']?.bind look := by
  unfold put
  by_cases heq : o' = o
  · rw [if_pos heq, heq, List.getElem?_set_self ho]
    rfl
  · rw [if_neg heq, List.getElem?_set_ne fun hne => heq hne.symm]

/-- What is found at an object after another was added. -/
theorem bind_add {β : Type} (look : Object → Option β) (o' : Nat) :
    (h.add object).2.objects[o']?.bind look =
      if o' = h.objects.length then look object else h.objects[o']?.bind look := by
  unfold add
  by_cases heq : o' = h.objects.length
  · simp [heq]
  · rw [if_neg heq]
    rcases Nat.lt_or_gt_of_ne heq with hlt | hgt
    · rw [List.getElem?_append_left hlt]
    · rw [List.getElem?_eq_none (by simp; omega), List.getElem?_eq_none (Nat.le_of_lt hgt)]

theorem lt_of_bind {β : Type} {look : Object → Option β} {b : β}
    (hb : h.objects[o]?.bind look = some b) : o < h.objects.length := by
  obtain ⟨object, hobject, -⟩ := Option.bind_eq_some_iff.1 hb
  exact (List.getElem?_eq_some_iff.1 hobject).1

/-- Every instance has all fields. -/
theorem exists_field? {className : String} (hc : h.class? o = some className) (m : MemberRef) :
    ∃ v, h.field? o m = some v := by
  obtain ⟨object, hobject, hclass⟩ := Option.bind_eq_some_iff.1 hc
  cases object with
  | ofClass => exact ⟨_, Option.bind_eq_some_iff.2 ⟨_, hobject, rfl⟩⟩
  | buffer => cases hclass

theorem exists_class? (hv : h.field? o m = some v) : ∃ className, h.class? o = some className := by
  obtain ⟨object, hobject, hfield⟩ := Option.bind_eq_some_iff.1 hv
  cases object with
  | ofClass => exact ⟨_, Option.bind_eq_some_iff.2 ⟨_, hobject, rfl⟩⟩
  | buffer => cases hfield

theorem field?_create (className : String) (o : Nat) (m : MemberRef) :
    (h.create className).2.field? o m =
      if o = h.objects.length then some (Value.initial m.descriptor) else h.field? o m :=
  bind_add _ o

theorem class?_create (className : String) (o : Nat) : (h.create className).2.class? o =
    if o = h.objects.length then some className else h.class? o :=
  bind_add _ o

theorem buffer?_create (className : String) (o : Nat) : (h.create className).2.buffer? o =
    if o = h.objects.length then none else h.buffer? o :=
  bind_add _ o

/-- Writing a field succeeds wherever reading it does, and changes that field of that object. -/
theorem exists_setField? (hv : h.field? o m = some v) (w : Value) : ∃ h',
    h.setField? o m w = some h' ∧ h'.statics = h.statics ∧
      (∀ o' m', h'.field? o' m' = if o' = o ∧ m' = m then some w else h.field? o' m') ∧
      (∀ o', h'.class? o' = h.class? o') ∧ ∀ o', h'.buffer? o' = h.buffer? o' := by
  have ho := lt_of_bind hv
  obtain ⟨object, hobject, hfield⟩ := Option.bind_eq_some_iff.1 hv
  cases object with
  | buffer => cases hfield
  | ofClass className fields =>
    have hwrite : h.setField? o m w =
        some (h.put o (.ofClass className fun m' => if m' = m then w else fields m')) := by
      rw [setField?, hobject]
      rfl
    refine ⟨_, hwrite, rfl, ?_, ?_, ?_⟩
    · intro o' m'
      rw [field?, bind_put _ ho, field?]
      by_cases heq : o' = o
      · subst heq
        by_cases hm : m' = m <;> simp [hm, hobject, Object.field?]
      · simp [heq]
    · intro o'
      rw [class?, bind_put _ ho, class?]
      by_cases heq : o' = o
      · subst heq
        simp [hobject, Object.class?]
      · simp [heq]
    · intro o'
      rw [buffer?, bind_put _ ho, buffer?]
      by_cases heq : o' = o
      · subst heq
        simp [hobject, Object.buffer?]
      · simp [heq]

/-- Two heaps have the same instances of classes, with the same fields. -/
structure SameInstances (h h' : Heap) : Prop where
  /-- The fields are the same. -/
  fields : ∀ o m, h'.field? o m = h.field? o m
  /-- The classes are the same. -/
  classes : ∀ o, h'.class? o = h.class? o

theorem SameInstances.refl (h : Heap) : h.SameInstances h := ⟨fun _ _ => rfl, fun _ => rfl⟩

theorem SameInstances.trans {h h' h'' : Heap} (hfirst : h.SameInstances h')
    (hthen : h'.SameInstances h'') : h.SameInstances h'' :=
  ⟨fun o m => (hthen.fields o m).trans (hfirst.fields o m),
    fun o => (hthen.classes o).trans (hfirst.classes o)⟩

/-- A buffer has no class and no fields, whatever it holds. -/
theorem sameInstances_put {b : Buffer} (hb : h.buffer? o = some b) (b' : Buffer) :
    h.SameInstances (h.put o (.buffer b')) := by
  have ho := lt_of_bind hb
  obtain ⟨object, hobject, hbuffer⟩ := Option.bind_eq_some_iff.1 hb
  cases object with
  | ofClass => cases hbuffer
  | buffer =>
    have hsame {β : Type} (look : Object → Option β) (hlook : ∀ b, look (.buffer b) = none)
        (o' : Nat) : (h.put o (.buffer b')).objects[o']?.bind look = h.objects[o']?.bind look := by
      rw [bind_put look ho]
      by_cases heq : o' = o
      · rw [if_pos heq, heq, hobject]
        exact (hlook b').trans (hlook _).symm
      · rw [if_neg heq]
    exact ⟨fun o' m' => hsame _ (fun _ => rfl) o', hsame _ fun _ => rfl⟩

theorem buffer?_put {b : Buffer} (hb : h.buffer? o = some b) (b' : Buffer) (o' : Nat) :
    (h.put o (.buffer b')).buffer? o' = if o' = o then some b' else h.buffer? o' :=
  bind_put Object.buffer? (lt_of_bind hb) o'

/-- A new buffer has no class and no fields. -/
theorem sameInstances_add (h : Heap) (b : Buffer) : h.SameInstances (h.add (.buffer b)).2 := by
  have hsame {β : Type} (look : Object → Option β) (hlook : ∀ b, look (.buffer b) = none)
      (o' : Nat) : (h.add (.buffer b)).2.objects[o']?.bind look = h.objects[o']?.bind look := by
    rw [bind_add look]
    by_cases heq : o' = h.objects.length
    · rw [if_pos heq, heq, List.getElem?_eq_none (Nat.le_refl _)]
      exact hlook b
    · rw [if_neg heq]
  exact ⟨fun o' m' => hsame _ (fun _ => rfl) o', hsame _ fun _ => rfl⟩

theorem buffer?_add (h : Heap) (b : Buffer) (o' : Nat) : (h.add (.buffer b)).2.buffer? o' =
    if o' = h.objects.length then some b else h.buffer? o' :=
  bind_add Object.buffer? o'

/-- A static field is not part of any object. -/
theorem sameInstances_setStatic (h : Heap) (m : MemberRef) (v : Value) :
    h.SameInstances (h.setStatic m v) :=
  ⟨fun _ _ => rfl, fun _ => rfl⟩

end

end Heap

end ClassWeave
