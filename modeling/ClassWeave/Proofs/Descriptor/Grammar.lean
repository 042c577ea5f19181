import ClassWeave.Proofs.Descriptor

/-!
# The grammar of field descriptors

A field descriptor is any number of brackets in front of a letter, or of a class name between `L`
and `;`.  The parser looks at both ends of what stands between these two and not inside, so it
takes any text there that is not empty, where the grammar wants a class name: one without the
characters that would end a descriptor or begin an array.

* `ValueKind.IsDescriptor` : the texts of the grammar, for a given notion of class names.
* `ValueKind.IsClassName` : the names that the grammar allows.
* `ValueKind.accepts_iff` : what the parser accepts, and which of it the grammar allows.
-/

namespace ClassWeave

namespace ValueKind

/-- The letters of the kinds of fixed size. -/
def letters : List Char := ['Z', 'B', 'C', 'S', 'I', 'F', 'J', 'D']

/-- A descriptor without brackets, where `IsName` tells what may stand between `L` and `;`. -/
inductive IsElement (IsName : List Char → Prop) : List Char → Prop
  /-- The letter of a kind of fixed size. -/
  | letter {c : Char} : c ∈ letters → IsElement IsName [c]
  /-- A class by its name. -/
  | object {name : List Char} : IsName name → IsElement IsName ('L' :: (name ++ [';']))

/-- A descriptor: an element with any number of brackets in front of it. -/
def IsDescriptor (IsName : List Char → Prop) (cs : List Char) : Prop :=
  ∃ n element, cs = List.replicate n '[' ++ element ∧ IsElement IsName element

/-- A class name is not empty, and has no character that would end a descriptor or begin an
array. -/
def IsClassName (name : List Char) : Prop := name ≠ [] ∧ ∀ c ∈ name, c ≠ ';' ∧ c ≠ '['

/-- What stands between the first and the last character behind the brackets. -/
def inner (cs : List Char) : List Char := (cs.dropWhile (· == '[')).tail.dropLast

variable {IsName : List Char → Prop} {cs : List Char}

theorem IsElement.imp {IsName' : List Char → Prop} (himp : ∀ name, IsName name → IsName' name)
    (h : IsElement IsName cs) : IsElement IsName' cs := by
  cases h with
  | letter hc => exact .letter hc
  | object hname => exact .object (himp _ hname)

/-- An element does not start with a bracket. -/
theorem IsElement.dropWhile (h : IsElement IsName cs) : cs.dropWhile (· == '[') = cs := by
  cases h with
  | @letter c hc =>
    have hne : c ≠ '[' := by
      rintro rfl
      exact absurd hc (by decide)
    simp [hne]
  | object => rw [List.dropWhile_cons_of_neg (by decide)]

/-- A descriptor is an element behind its brackets. -/
theorem isDescriptor_iff :
    IsDescriptor IsName cs ↔ IsElement IsName (cs.dropWhile (· == '[')) := by
  constructor
  · rintro ⟨n, element, rfl, h⟩
    rw [List.dropWhile_append_of_pos (by simp), h.dropWhile]
    exact h
  · intro h
    have hbrackets : cs.takeWhile (· == '[') =
        List.replicate (cs.takeWhile (· == '[')).length '[' :=
      List.eq_replicate_iff.2 ⟨rfl, fun c hc => by
        simpa using List.all_eq_true.1 (List.all_takeWhile (l := cs)) c hc⟩
    refine ⟨(cs.takeWhile (· == '[')).length, cs.dropWhile (· == '['), ?_, h⟩
    rw [← hbrackets, List.takeWhile_append_dropWhile]

/-! ### What the parser accepts -/

/-- Between `L` and `;` every text is accepted that is not empty. -/
theorem exists_ofElement?_iff : (∃ kind, ofElement? cs = some kind) ↔ IsElement (· ≠ []) cs := by
  constructor
  · rintro ⟨kind, h⟩
    unfold ofElement? at h
    split at h
    case h_9 rest =>
      split at h
      · rename_i hrest
        obtain ⟨name, rfl⟩ := List.getLast?_eq_some_iff.1 hrest.1
        refine .object fun hnil => ?_
        rw [hnil] at hrest
        exact absurd hrest.2 (by decide)
      · cases h
    case h_10 => cases h
    all_goals exact .letter (by decide)
  · intro h
    cases h with
    | letter hc =>
      simp only [letters, List.mem_cons, List.not_mem_nil, or_false] at hc
      rcases hc with rfl | rfl | rfl | rfl | rfl | rfl | rfl | rfl
      all_goals exact ⟨_, rfl⟩
    | @object name hname =>
      have hlength : 0 < name.length := List.length_pos_iff.2 hname
      refine ⟨object (String.ofList name), ?_⟩
      simp [ofElement?, hlength]

theorem exists_parse_iff {text : String} :
    (∃ kind, parse text = .ok kind) ↔ IsDescriptor (· ≠ []) text.toList := by
  rw [isDescriptor_iff, ← exists_ofElement?_iff]
  unfold parse
  simp only
  split
  · rename_i kind hkind
    exact ⟨fun _ => ⟨kind, hkind⟩, fun _ => ⟨_, rfl⟩⟩
  · rename_i hnone
    simp [hnone]

/-! ### What the grammar allows -/

/-- An accepted element is one of the grammar unless there is a semicolon or a bracket inside. -/
theorem IsElement.isClassName_iff (h : IsElement (· ≠ []) cs) :
    IsElement IsClassName cs ↔ ∀ c ∈ cs.tail.dropLast, c ≠ ';' ∧ c ≠ '[' := by
  cases h with
  | letter hc => exact ⟨fun _ => by simp, fun _ => .letter hc⟩
  | @object name hname =>
    rw [List.tail_cons, List.dropLast_concat]
    constructor
    · intro h
      generalize htext : 'L' :: (name ++ [';']) = text at h
      cases h with
      | letter =>
        -- a letter is shorter than what has a name in it
        have hlength := congrArg List.length htext
        simp at hlength
      | object hallowed =>
        obtain rfl := List.append_cancel_right (List.cons.inj htext).2
        exact hallowed.2
    · exact fun hinner => .object ⟨hname, hinner⟩

/-- **What the parser accepts.**  A text is accepted just when it is any number of brackets in front
of one of the eight letters, or of a text between `L` and `;` that is not empty; and a kind has the
descriptor that it was parsed from.  Of these texts the grammar allows those in which no semicolon
and no bracket stands between `L` and the closing semicolon. -/
theorem accepts_iff (text : String) :
    ((∃ kind, parse text = .ok kind) ↔ IsDescriptor (· ≠ []) text.toList) ∧
      (∀ kind, parse text = .ok kind → kind.descriptor = text) ∧
      (IsDescriptor IsClassName text.toList ↔
        (∃ kind, parse text = .ok kind) ∧ ∀ c ∈ inner text.toList, c ≠ ';' ∧ c ≠ '[') := by
  refine ⟨exists_parse_iff, fun kind h => descriptor_of_parse h, ?_⟩
  rw [exists_parse_iff, isDescriptor_iff, isDescriptor_iff]
  constructor
  · intro h
    have haccepted : IsElement (· ≠ []) (text.toList.dropWhile (· == '[')) :=
      h.imp fun _ hname => hname.1
    exact ⟨haccepted, haccepted.isClassName_iff.1 h⟩
  · rintro ⟨haccepted, hinner⟩
    exact haccepted.isClassName_iff.2 hinner

/-- A semicolon inside a class name is accepted, and the grammar does not allow it. -/
theorem accepts_iff_innerSemicolon :
    parse "La;b;" = .ok (.object "a;b") ∧ IsDescriptor (· ≠ []) "La;b;".toList ∧
      ¬ IsDescriptor IsClassName "La;b;".toList := by
  have hparse : parse "La;b;" = .ok (.object "a;b") := rfl
  obtain ⟨haccepts, -, hallows⟩ := accepts_iff "La;b;"
  refine ⟨hparse, haccepts.1 ⟨_, hparse⟩, fun h => ?_⟩
  have hsemicolon : ';' ∈ inner "La;b;".toList := by decide
  exact ((hallows.1 h).2 ';' hsemicolon).1 rfl

end ValueKind

end ClassWeave
