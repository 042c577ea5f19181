import ClassWeave.Weaving.Layout

/-!
# Where packed fields lie

* `PackedLayout.mem_ofFields` : the fields of a layout are those that it was made of.
* `PackedLayout.pairwise_ofFields`, `end_le_stride` : they lie one behind the other, and within the
  distance between slots.
* `PackedLayout.address`, `disjoint_address` : no two fields of all slots overlap.
-/

namespace ClassWeave

namespace PackedLayout

variable {offset size : Nat} {fs : List Field} {f : PackedField}

theorem le_align (offset : Nat) (hsize : 0 < size) : offset ≤ align offset size := by
  unfold align
  have hdiv := Nat.div_add_mod (offset + size - 1) size
  have hmod := Nat.mod_lt (offset + size - 1) hsize
  rw [Nat.mul_comm] at hdiv
  omega

theorem packedSize_pos (kind : ValueKind) : 0 < kind.packedSize := by
  cases kind <;> exact Nat.succ_pos _

theorem mem_place (h : f ∈ place offset fs) :
    offset ≤ f.offset ∧ f.size = f.kind.packedSize ∧
      ∃ g ∈ fs, f.name = g.name ∧ f.kind = g.kind := by
  induction fs generalizing offset with
  | nil => cases h
  | cons g fs ih =>
    have hle := le_align offset (packedSize_pos g.kind)
    rcases List.mem_cons.1 h with rfl | h
    · exact ⟨hle, rfl, g, List.mem_cons_self, rfl, rfl⟩
    · obtain ⟨hoffset, hsize, g', hg', hname, hkind⟩ := ih h
      exact ⟨by omega, hsize, g', List.mem_cons_of_mem _ hg', hname, hkind⟩

/-- Fields are placed one behind the other. -/
theorem pairwise_place (offset : Nat) (fs : List Field) :
    (place offset fs).Pairwise fun f g => f.offset + f.size ≤ g.offset := by
  induction fs generalizing offset with
  | nil => exact .nil
  | cons g fs ih => exact List.pairwise_cons.2 ⟨fun f hf => (mem_place hf).1, ih _⟩

/-- The fields of a layout are those that it was made of. -/
theorem mem_ofFields (h : f ∈ (ofFields fs).fields) :
    f.size = f.kind.packedSize ∧
      ∃ g ∈ fs, g.isStatic = false ∧ f.name = g.name ∧ f.kind = g.kind := by
  obtain ⟨-, hsize, g, hg, hname, hkind⟩ := mem_place h
  obtain ⟨hmem, hstatic⟩ := List.mem_filter.1 hg
  exact ⟨hsize, g, hmem, by simpa using hstatic, hname, hkind⟩

/-- The fields of a layout lie one behind the other. -/
theorem pairwise_ofFields (fs : List Field) :
    (ofFields fs).fields.Pairwise fun f g => f.offset + f.size ≤ g.offset :=
  pairwise_place 0 _

theorem end_le_endOf {fields : List PackedField}
    (hfields : fields.Pairwise fun f g => f.offset + f.size ≤ g.offset) (h : f ∈ fields) :
    f.offset + f.size ≤ endOf fields := by
  obtain ⟨last, hlast⟩ := Option.isSome_iff_exists.1 (List.getLast?_isSome.2 (List.ne_nil_of_mem h))
  obtain ⟨front, rfl⟩ := List.getLast?_eq_some_iff.1 hlast
  have hend : endOf (front ++ [last]) = last.offset + last.size := by rw [endOf, hlast]
  rw [hend]
  rcases List.mem_append.1 h with h | h
  · have hbefore := (List.pairwise_append.1 hfields).2.2 f h last (List.mem_singleton_self _)
    omega
  · obtain rfl := List.mem_singleton.1 h
    exact Nat.le_refl _

theorem alignment_pos (fields : List PackedField) : 0 < alignment fields := by
  have hfold (n : Nat) : n ≤ fields.foldl (fun a f => max a f.size) n := by
    induction fields generalizing n with
    | nil => exact Nat.le_refl n
    | cons f fields ih => exact Nat.le_trans (Nat.le_max_left n f.size) (ih _)
  exact hfold 1

/-- The fields of a layout lie within the distance between slots. -/
theorem end_le_stride (h : f ∈ (ofFields fs).fields) : f.offset + f.size ≤ (ofFields fs).stride :=
  Nat.le_trans (end_le_endOf (pairwise_ofFields fs) h) (le_align _ (alignment_pos _))

/-- Where a field of a slot lies in the buffer. -/
def address (layout : PackedLayout) (slot : Nat) (f : PackedField) : Nat :=
  slot * layout.stride + f.offset

theorem address_add_size_le (h : f ∈ (ofFields fs).fields) (slot : Nat) :
    address (ofFields fs) slot f + f.size ≤ (slot + 1) * (ofFields fs).stride := by
  have hend := end_le_stride h
  rw [address, Nat.add_mul, Nat.one_mul]
  omega

/-- A field of a slot ends before every field of a later slot, and before every later field of the
same slot. -/
theorem address_add_size_le_address {g : PackedField} {k l slot slot' : Nat}
    (hf : (ofFields fs).fields[k]? = some f) (hg : (ofFields fs).fields[l]? = some g)
    (h : slot < slot' ∨ slot = slot' ∧ k < l) :
    address (ofFields fs) slot f + f.size ≤ address (ofFields fs) slot' g := by
  rcases h with hslot | ⟨rfl, hlt⟩
  · have hend := address_add_size_le (List.mem_of_getElem? hf) slot
    have hstart : (slot + 1) * (ofFields fs).stride ≤ slot' * (ofFields fs).stride :=
      Nat.mul_le_mul_right _ hslot
    have haddress : slot' * (ofFields fs).stride ≤ address (ofFields fs) slot' g :=
      Nat.le_add_right _ _
    omega
  · obtain ⟨hk, rfl⟩ := List.getElem?_eq_some_iff.1 hf
    obtain ⟨hl, rfl⟩ := List.getElem?_eq_some_iff.1 hg
    have hbehind := List.pairwise_iff_getElem.1 (pairwise_ofFields fs) k l hk hl hlt
    unfold address
    omega

/-- **No two fields overlap**, in whatever slots they are. -/
theorem disjoint_address {g : PackedField} {k l slot slot' : Nat}
    (hf : (ofFields fs).fields[k]? = some f) (hg : (ofFields fs).fields[l]? = some g)
    (hne : ¬ (slot = slot' ∧ k = l)) :
    address (ofFields fs) slot f + f.size ≤ address (ofFields fs) slot' g ∨
      address (ofFields fs) slot' g + g.size ≤ address (ofFields fs) slot f := by
  by_cases hbefore : slot < slot' ∨ slot = slot' ∧ k < l
  · exact .inl (address_add_size_le_address hf hg hbefore)
  · exact .inr (address_add_size_le_address hg hf (by omega))

end PackedLayout

end ClassWeave
