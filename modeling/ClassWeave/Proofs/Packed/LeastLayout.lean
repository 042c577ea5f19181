import ClassWeave.Proofs.Except
import ClassWeave.Proofs.Packed.Layout
import Mathlib.Data.List.Induction

/-!
# The least layout

Many layouts keep the fields of a component in the order of their declaration, apart from each
other, and at multiples of their sizes.  The packed layout is the least of them: it starts every
field no later than any other does.  All sizes divide eight, so a field costs at most eight bytes,
whatever lies in front of it, and the bytes of a slot can be counted in words of 32 bits.

* `PackedLayout.IsPlacement` : fields one behind the other, each at a multiple of its size.
* `PackedLayout.place_least` : no placement starts a field earlier.
* `PackedLayout.stride_le` : a slot has at most eight bytes for each field.
* `PackedLayout.ofFields?` : the layout computed in words, which cannot hold every number.
* `PackedLayout.packs_ofFields` : the layout of every list of fields whose bytes a word can count.
-/

namespace ClassWeave

namespace PackedLayout

variable {offset size m n : Nat} {f : Field} {fs gs : List Field} {e : PackedField}
  {placed : List PackedField}

/-! ### Multiples of sizes -/

/-- The numbers of bytes that a value can take. -/
def widths : List Nat := [1, 2, 4, 8]

theorem packedSize_mem_widths (kind : ValueKind) : kind.packedSize ∈ widths := by
  unfold widths
  cases kind <;> simp [ValueKind.packedSize]

theorem dvd_of_mem_widths : ∀ n ∈ widths, ∀ m ∈ widths, n ≤ m → n ∣ m := by
  decide

theorem dvd_eight_of_mem_widths : ∀ n ∈ widths, n ∣ 8 := by
  decide

theorem dvd_align (offset size : Nat) : size ∣ align offset size := Nat.dvd_mul_left _ _

/-- Rounding up stops at the first multiple. -/
theorem align_le (hsize : size ∣ m) (hle : offset ≤ m) : align offset size ≤ m := by
  obtain ⟨k, rfl⟩ := hsize
  rcases Nat.eq_zero_or_pos size with rfl | hpos
  · simp [align]
  have hquotient : (offset + size - 1) / size < k + 1 := by
    rw [Nat.div_lt_iff_lt_mul hpos, Nat.add_mul, Nat.one_mul, Nat.mul_comm k]
    omega
  calc align offset size ≤ k * size := Nat.mul_le_mul_right size (Nat.le_of_lt_succ hquotient)
    _ = size * k := Nat.mul_comm k size

/-! ### Placing -/

/-- The fields that have a place in a slot. -/
def instanceFields (fs : List Field) : List Field := fs.filter (!·.isStatic)

/-- Where fields end that are placed from `offset` on. -/
def behind : (offset : Nat) → List Field → Nat
  | offset, [] => offset
  | offset, f :: fs => behind (align offset f.kind.packedSize + f.kind.packedSize) fs

theorem place_append (offset : Nat) (fs gs : List Field) :
    place offset (fs ++ gs) = place offset fs ++ place (behind offset fs) gs := by
  induction fs generalizing offset with
  | nil => rfl
  | cons f fs ih => rw [List.cons_append, place, ih, place, behind, List.cons_append]

theorem behind_append (offset : Nat) (fs gs : List Field) :
    behind offset (fs ++ gs) = behind (behind offset fs) gs := by
  induction fs generalizing offset with
  | nil => rfl
  | cons f fs ih => rw [List.cons_append, behind, ih, behind]

theorem endOf_place (fs : List Field) : endOf (place 0 fs) = behind 0 fs := by
  cases fs using List.reverseRecOn with
  | nil => rfl
  | append_singleton fs f =>
    rw [place_append, behind_append, endOf]
    simp [place, behind]

/-- Every field adds at most eight bytes, because a multiple of eight is one of all sizes. -/
theorem behind_le (hoffset : offset ≤ 8 * n) : behind offset fs ≤ 8 * (n + fs.length) := by
  induction fs generalizing offset n with
  | nil => exact hoffset
  | cons f fs ih =>
    have hdvd := dvd_eight_of_mem_widths _ (packedSize_mem_widths f.kind)
    have hstart : align offset f.kind.packedSize ≤ 8 * n :=
      align_le (Nat.dvd_mul_right_of_dvd hdvd n) hoffset
    have hsize : f.kind.packedSize ≤ 8 := Nat.le_of_dvd (by decide) hdvd
    rw [behind, List.length_cons, Nat.add_comm fs.length, ← Nat.add_assoc]
    exact ih (by omega)

/-- The same sizes are placed at the same offsets. -/
theorem place_congr (h : gs.map (·.kind.packedSize) = fs.map (·.kind.packedSize)) :
    (place offset gs).map (fun e => (e.offset, e.size)) =
      (place offset fs).map fun e => (e.offset, e.size) := by
  induction fs generalizing offset gs with
  | nil =>
    obtain rfl := List.map_eq_nil_iff.1 h
    rfl
  | cons f fs ih =>
    obtain ⟨g, gs, rfl, hsize, hsizes⟩ := List.map_eq_cons_iff.1 h
    simp only [place, List.map_cons, hsize]
    rw [ih hsizes]

/-! ### The least placement -/

/-- Fields keep the order of their declaration, do not overlap, and start at multiples of their
sizes. -/
structure IsPlacement (fs : List Field) (placed : List PackedField) : Prop where
  /-- Every field has its entry. -/
  entries : List.Forall₂ (fun f e => e.name = f.name ∧ e.kind = f.kind ∧
    e.size = f.kind.packedSize) fs placed
  /-- No field starts in front of an earlier one. -/
  ordered : placed.Pairwise fun e e' => e.offset ≤ e'.offset
  /-- No two fields overlap. -/
  apart : placed.Pairwise fun e e' =>
    e.offset + e.size ≤ e'.offset ∨ e'.offset + e'.size ≤ e.offset
  /-- Every field starts at a multiple of its size. -/
  aligned : ∀ e ∈ placed, e.size ∣ e.offset

theorem isPlacement_place (offset : Nat) (fs : List Field) :
    IsPlacement fs (place offset fs) := by
  have hbehind := pairwise_place offset fs
  refine ⟨?_, hbehind.imp fun h => by omega, hbehind.imp fun h => .inl h, ?_⟩
  · clear hbehind
    induction fs generalizing offset with
    | nil => exact .nil
    | cons f fs ih => exact .cons ⟨rfl, rfl, rfl⟩ (ih _)
  · clear hbehind
    induction fs generalizing offset with
    | nil => exact fun e he => absurd he List.not_mem_nil
    | cons f fs ih => exact List.forall_mem_cons.2 ⟨dvd_align _ _, ih _⟩

/-- In a placement, all fields behind the first start where it ends or later. -/
theorem IsPlacement.end_le (h : IsPlacement (f :: fs) (e :: placed)) :
    ∀ e' ∈ placed, e.offset + e.size ≤ e'.offset := by
  obtain ⟨-, hentries⟩ := List.forall₂_cons.1 h.entries
  intro e' he'
  obtain ⟨g, -, -, -, hsize⟩ := exists_of_mem_right hentries he'
  have hpos := packedSize_pos g.kind
  have hordered := (List.pairwise_cons.1 h.ordered).1 e' he'
  have hapart := (List.pairwise_cons.1 h.apart).1 e' he'
  omega

theorem IsPlacement.tail (h : IsPlacement (f :: fs) (e :: placed)) : IsPlacement fs placed :=
  ⟨(List.forall₂_cons.1 h.entries).2, (List.pairwise_cons.1 h.ordered).2,
    (List.pairwise_cons.1 h.apart).2, fun e' he' => h.aligned e' (List.mem_cons_of_mem e he')⟩

/-- **No placement starts a field earlier.** -/
theorem place_least (h : IsPlacement fs placed) (hoffset : ∀ e ∈ placed, offset ≤ e.offset) :
    List.Forall₂ (fun e e' => e.offset ≤ e'.offset) (place offset fs) placed := by
  induction fs generalizing offset placed with
  | nil =>
    cases h.entries
    exact .nil
  | cons f fs ih =>
    obtain ⟨e, placed, ⟨-, -, hsize⟩, -, rfl⟩ := List.forall₂_cons_left_iff.1 h.entries
    obtain ⟨hle, -⟩ := List.forall_mem_cons.1 hoffset
    have hdvd := h.aligned e List.mem_cons_self
    rw [hsize] at hdvd
    have hfirst := align_le hdvd hle
    refine .cons hfirst (ih h.tail fun e' he' => ?_)
    have hend := h.end_le e' he'
    omega

/-! ### Slots -/

theorem alignment_append (placed : List PackedField) (e : PackedField) :
    alignment (placed ++ [e]) = max (alignment placed) e.size := by
  simp [alignment, List.foldl_append]

/-- The greatest size is a multiple of all sizes, as each of them divides the next larger one. -/
theorem alignment_place (offset : Nat) (fs : List Field) :
    alignment (place offset fs) ∈ widths ∧
      ∀ e ∈ place offset fs, e.size ≤ alignment (place offset fs) := by
  induction fs using List.reverseRecOn with
  | nil => exact ⟨(by decide : 1 ∈ widths), fun e he => absurd he List.not_mem_nil⟩
  | append_singleton fs f ih =>
    obtain ⟨hmem, hle⟩ := ih
    have hwidth := packedSize_mem_widths f.kind
    rw [place_append]
    simp only [place, alignment_append]
    refine ⟨?_, fun e he => ?_⟩
    · rcases Nat.le_total (alignment (place offset fs)) f.kind.packedSize with h | h
      · rwa [Nat.max_eq_right h]
      · rwa [Nat.max_eq_left h]
    · rcases List.mem_append.1 he with he | he
      · exact Nat.le_trans (hle e he) (Nat.le_max_left _ _)
      · obtain rfl := List.mem_singleton.1 he
        exact Nat.le_max_right _ _

theorem size_dvd_alignment (he : e ∈ place offset fs) :
    e.size ∣ alignment (place offset fs) := by
  obtain ⟨hmem, hle⟩ := alignment_place offset fs
  have hwidth : e.size ∈ widths := (mem_place he).2.1 ▸ packedSize_mem_widths e.kind
  exact dvd_of_mem_widths _ hwidth _ hmem (hle e he)

theorem alignment_dvd (offset : Nat) (fs : List Field) : alignment (place offset fs) ∣ 8 :=
  dvd_eight_of_mem_widths _ (alignment_place offset fs).1

/-- Slots are apart by a multiple of all sizes. -/
theorem size_dvd_stride (he : e ∈ (ofFields fs).fields) : e.size ∣ (ofFields fs).stride :=
  Nat.dvd_trans (size_dvd_alignment he) (dvd_align _ _)

/-- The stride hangs on offsets and sizes alone. -/
theorem stride_congr (h : (place 0 (instanceFields gs)).map (fun e => (e.offset, e.size)) =
    (place 0 (instanceFields fs)).map fun e => (e.offset, e.size)) :
    (ofFields gs).stride = (ofFields fs).stride := by
  have hend (placed : List PackedField) : endOf placed =
      match (placed.map fun e => (e.offset, e.size)).getLast? with
      | some (offset, size) => offset + size
      | none => 0 := by
    rw [List.getLast?_map, endOf]
    cases placed.getLast? <;> rfl
  have halignment (placed : List PackedField) : alignment placed =
      (placed.map fun e => (e.offset, e.size)).foldl (fun a e => max a e.2) 1 := by
    rw [List.foldl_map, alignment]
  show align (endOf (place 0 (instanceFields gs))) (alignment (place 0 (instanceFields gs))) =
    align (endOf (place 0 (instanceFields fs))) (alignment (place 0 (instanceFields fs)))
  rw [hend, halignment, h, ← hend, ← halignment]

/-- **A slot has at most eight bytes for each field.** -/
theorem stride_le (fs : List Field) : (ofFields fs).stride ≤ 8 * (instanceFields fs).length := by
  have hend : behind 0 (instanceFields fs) ≤ 8 * (0 + (instanceFields fs).length) :=
    behind_le (Nat.le_refl 0)
  rw [Nat.zero_add, ← endOf_place] at hend
  exact align_le (Nat.dvd_mul_right_of_dvd (alignment_dvd 0 _) _) hend

/-! ### Words -/

/-- A number that a word of 32 bits holds. -/
def word? (n : Nat) : Option Nat := if n < 2 ^ 32 then some n else none

/-- The least multiple of `size` that is not below `offset`, if words hold all that is needed to
compute it: the quotient, which is rounded up, and its product with the size. -/
def alignWord? (offset size : Nat) : Option Nat := do
  let quotient ← word? (offset / size + if 0 < offset % size then 1 else 0)
  word? (quotient * size)

/-- How far the fields have been placed. -/
structure Progress where
  /-- Where the last of them ends. -/
  offset : Nat
  /-- The greatest size among them, at least one. -/
  alignment : Nat
  /-- The fields that have been placed. -/
  placed : List PackedField

namespace Progress

/-- Nothing has been placed. -/
def start : Progress := { offset := 0, alignment := 1, placed := [] }

/-- Places one more field. -/
def next? (s : Progress) (f : Field) : Option Progress := do
  let size := f.kind.packedSize
  let start ← alignWord? s.offset size
  let offset ← word? (start + size)
  return { offset, alignment := max s.alignment size,
           placed := s.placed ++ [{ name := f.name, kind := f.kind, offset := start, size }] }

/-- Some fields have been placed. -/
def after (fs : List Field) : Progress :=
  { offset := behind 0 fs, alignment := PackedLayout.alignment (place 0 fs), placed := place 0 fs }

end Progress

/-- The layout of a list of fields, one field after the other, if words hold all numbers on the
way. -/
def ofFields? (fs : List Field) : Option PackedLayout := do
  let s ← (instanceFields fs).foldlM Progress.next? .start
  let stride ← alignWord? s.offset s.alignment
  return { stride, fields := s.placed }

theorem ceil_eq (offset : Nat) (hsize : 0 < size) :
    offset / size + (if 0 < offset % size then 1 else 0) = (offset + size - 1) / size := by
  have hdiv := Nat.div_add_mod offset size
  have hmod := Nat.mod_lt offset hsize
  symm
  rw [Nat.div_eq_iff hsize]
  split <;> constructor <;> grind

theorem word?_eq (h : n < 2 ^ 32) : word? n = some n := if_pos h

theorem alignWord?_eq (hsize : 0 < size) (h : align offset size < 2 ^ 32) :
    alignWord? offset size = some (align offset size) := by
  have hquotient : (offset + size - 1) / size ≤ align offset size := Nat.le_mul_of_pos_right _ hsize
  rw [alignWord?, ceil_eq offset hsize, word?_eq (Nat.lt_of_le_of_lt hquotient h)]
  exact word?_eq h

/-- One more field is placed without leaving the words. -/
theorem Progress.next?_after (h : 8 * (fs.length + 1) < 2 ^ 32) :
    (after fs).next? f = some (after (fs ++ [f])) := by
  have hend : behind 0 (fs ++ [f]) ≤ 8 * (0 + (fs ++ [f]).length) := behind_le (Nat.le_refl 0)
  rw [Nat.zero_add, List.length_append, List.length_singleton, behind_append] at hend
  simp only [behind] at hend
  have hstart : alignWord? (behind 0 fs) f.kind.packedSize =
      some (align (behind 0 fs) f.kind.packedSize) :=
    alignWord?_eq (packedSize_pos f.kind) (by omega)
  have hnext := word?_eq (Nat.lt_of_le_of_lt hend h)
  simp only [next?, after, hstart, hnext, Option.bind_eq_bind, Option.bind_some, place_append,
    behind_append, place, behind, alignment_append]
  rfl

/-- All fields are. -/
theorem Progress.foldlM_after (h : 8 * (fs.length + gs.length) < 2 ^ 32) :
    gs.foldlM next? (after fs) = some (after (fs ++ gs)) := by
  induction gs generalizing fs with
  | nil => rw [List.append_nil]; rfl
  | cons g gs ih =>
    rw [List.length_cons] at h
    have hnext : (after fs).next? g = some (after (fs ++ [g])) := next?_after (by omega)
    have hlater : gs.foldlM next? (after (fs ++ [g])) = some (after ((fs ++ [g]) ++ gs)) := by
      apply ih
      rw [List.length_append, List.length_singleton]
      omega
    rw [List.append_assoc, List.singleton_append] at hlater
    rw [List.foldlM_cons, hnext]
    exact hlater

/-- **Words hold all numbers on the way** to the layout, and it is the one that is used. -/
theorem ofFields?_eq (h : 8 * (instanceFields fs).length < 2 ^ 32) :
    ofFields? fs = some (ofFields fs) := by
  have hplaced : (instanceFields fs).foldlM Progress.next? .start =
      some (.after (instanceFields fs)) := by
    have hcount : 8 * (([] : List Field).length + (instanceFields fs).length) < 2 ^ 32 := by
      rwa [List.length_nil, Nat.zero_add]
    exact Progress.foldlM_after hcount
  have hstride :
      alignWord? (behind 0 (instanceFields fs)) (alignment (place 0 (instanceFields fs))) =
        some (ofFields fs).stride := by
    have hle := stride_le fs
    rw [ofFields, endOf_place] at hle ⊢
    exact alignWord?_eq (alignment_pos _) (Nat.lt_of_le_of_lt hle h)
  rw [ofFields?, hplaced]
  simp only [Option.bind_eq_bind, Option.bind_some, Progress.after, hstride]
  rfl

/-! ### The layout -/

/-- The layout is sound for the fields, the least one, and bounded. -/
structure Packs (fs : List Field) (layout : PackedLayout) : Prop where
  /-- It places the instance fields in the order of their declaration. -/
  placement : IsPlacement (instanceFields fs) layout.fields
  /-- Every field of a slot lies within the slot. -/
  inside : ∀ e ∈ layout.fields, ∀ slot, slot * layout.stride ≤ layout.address slot e ∧
    layout.address slot e + e.size ≤ (slot + 1) * layout.stride
  /-- It starts at a multiple of its size. -/
  aligned : ∀ e ∈ layout.fields, ∀ slot, e.size ∣ layout.address slot e
  /-- No two fields of all slots overlap. -/
  apart : ∀ (k l slot slot' : Nat) (e e' : PackedField), layout.fields[k]? = some e →
    layout.fields[l]? = some e' → ¬ (slot = slot' ∧ k = l) →
    layout.address slot e + e.size ≤ layout.address slot' e' ∨
      layout.address slot' e' + e'.size ≤ layout.address slot e
  /-- No other placement starts a field earlier. -/
  least : ∀ other, IsPlacement (instanceFields fs) other →
    List.Forall₂ (fun e e' => e.offset ≤ e'.offset) layout.fields other
  /-- A slot has at most eight bytes for each field. -/
  bounded : layout.stride ≤ 8 * (instanceFields fs).length

/-- **The packed layout is sound, the least one, and bounded.**  If a word can count eight bytes for
each field, words hold all numbers on the way to it.  Further fields do not move earlier ones, and
offsets and stride hang on nothing but the sizes of the instance fields in their order. -/
theorem packs_ofFields (fs : List Field) (hcount : 8 * (instanceFields fs).length < 2 ^ 32) :
    ofFields? fs = some (ofFields fs) ∧ Packs fs (ofFields fs) ∧
    (∀ more, (ofFields fs).fields <+: (ofFields (fs ++ more)).fields) ∧
    ∀ other, (instanceFields other).map (·.kind.packedSize) =
        (instanceFields fs).map (·.kind.packedSize) →
      (ofFields other).fields.map (·.offset) = (ofFields fs).fields.map (·.offset) ∧
        (ofFields other).stride = (ofFields fs).stride := by
  refine ⟨ofFields?_eq hcount, ?_, fun more => ?_, fun other hsizes => ?_⟩
  · refine ⟨isPlacement_place 0 _, fun e he slot => ⟨Nat.le_add_right _ _, ?_⟩, fun e he slot => ?_,
      fun _ _ _ _ _ _ hk hl hne => disjoint_address hk hl hne, fun other hother => ?_, stride_le fs⟩
    · exact address_add_size_le he slot
    · have haligned := (isPlacement_place 0 (instanceFields fs)).aligned e he
      exact Nat.dvd_add (Nat.dvd_mul_left_of_dvd (size_dvd_stride he) slot) haligned
    · exact place_least hother fun e _ => Nat.zero_le e.offset
  · have hfields : (ofFields (fs ++ more)).fields =
        (ofFields fs).fields ++ place (behind 0 (instanceFields fs)) (instanceFields more) := by
      rw [ofFields, List.filter_append]
      exact place_append 0 (instanceFields fs) (instanceFields more)
    exact ⟨_, hfields.symm⟩
  · have hplaced : (place 0 (instanceFields other)).map (fun e => (e.offset, e.size)) =
        (place 0 (instanceFields fs)).map fun e => (e.offset, e.size) := place_congr hsizes
    constructor
    · have hoffsets := congrArg (List.map Prod.fst) hplaced
      rw [List.map_map, List.map_map] at hoffsets
      exact hoffsets
    · exact stride_congr hplaced

/-- Five fields of four sizes, with a static field among them.  The second, of eight bytes, leaves
a gap behind the first, and the slot ends with the last. -/
theorem packs_ofFields_mixed :
    let fs : List Field := [⟨"alive", .boolean, false, none⟩, ⟨"id", .long, false, none⟩,
      ⟨"count", .int, true, none⟩, ⟨"kind", .short, false, none⟩, ⟨"flag", .byte, false, none⟩,
      ⟨"target", .object "B", false, none⟩]
    8 * (instanceFields fs).length < 2 ^ 32 ∧ Packs fs (ofFields fs) ∧
      (ofFields fs).fields.map (·.offset) = [0, 8, 16, 18, 20] ∧ (ofFields fs).stride = 24 := by
  intro fs
  have hcount : 8 * (instanceFields fs).length < 2 ^ 32 := by decide
  obtain ⟨-, hpacks, -⟩ := packs_ofFields fs hcount
  exact ⟨hcount, hpacks, by decide, by decide⟩

end PackedLayout

end ClassWeave
