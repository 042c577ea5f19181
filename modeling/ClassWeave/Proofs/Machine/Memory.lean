import ClassWeave.Proofs.Machine.Library

/-!
# Memory behind a buffer

A buffer that grows is seen as memory without an end, which holds zeros behind the end of the
buffer.  Then a buffer of more zeros is the same memory.

* `Memory.cell`, `Memory.write` : reading a number in a format, and overwriting bytes.
* `Memory.cell_write`, `cell_write_of_disjoint` : a number that was written is read again, and
  others stay as they are.
* `Memory.ofBytes_writeAt?`, `readAt?_eq` : the operations of a buffer on its memory.
* `Heap.Copied`, `Heap.exists_copied` : a buffer is copied into a larger one with the same memory.
-/

namespace ClassWeave

/-- A byte at every address. -/
abbrev Memory := Nat → UInt8

namespace Memory

variable {M : Memory} {c : Cell} {address : Nat} {bs new : Bytes}

/-- The memory of a buffer that holds some bytes. -/
def ofBytes (bs : Bytes) : Memory := fun i => bs.getD i 0

/-- The bytes from an address on. -/
def slice (M : Memory) (address width : Nat) : Bytes :=
  (List.range width).map fun i => M (address + i)

/-- The value in a format at an address. -/
def cell (M : Memory) (c : Cell) (address : Nat) : Value :=
  c.decode (BigEndian.decode (M.slice address c.width))

/-- The memory with some bytes overwritten. -/
def write (M : Memory) (address : Nat) (bs : Bytes) : Memory := fun i =>
  if address ≤ i ∧ i < address + bs.length then bs.getD (i - address) 0 else M i

theorem cell_zero (c : Cell) (address : Nat) : cell (fun _ => 0) c address = c.type.zero := by
  have hzero : BigEndian.decode ((List.range c.width).map fun _ => 0) = 0 := by
    cases c <;> rfl
  exact (congrArg c.decode hzero).trans c.decode_zero

theorem slice_write (M : Memory) (address : Nat) (bs : Bytes) :
    (M.write address bs).slice address bs.length = bs := by
  refine List.ext_getElem (by simp [slice]) fun i hi hi' => ?_
  have hin : address ≤ address + i ∧ address + i < address + bs.length := by omega
  simp only [slice, List.getElem_map, List.getElem_range, write, if_pos hin,
    Nat.add_sub_cancel_left]
  exact (List.getElem_eq_getD 0).symm

theorem slice_write_of_disjoint {width a : Nat}
    (h : address + width ≤ a ∨ a + bs.length ≤ address) :
    (M.write a bs).slice address width = M.slice address width := by
  refine List.map_congr_left fun i hi => ?_
  have hi := List.mem_range.1 hi
  have hout : ¬ (a ≤ address + i ∧ address + i < a + bs.length) := by omega
  exact if_neg hout

/-- **What was written is read again.** -/
theorem cell_write {n : Nat} (hn : n < 256 ^ c.width) :
    (M.write address (BigEndian.encode c.width n)).cell c address = c.decode n := by
  have hslice := slice_write M address (BigEndian.encode c.width n)
  rw [BigEndian.length_encode] at hslice
  rw [cell, hslice, BigEndian.decode_encode, Nat.mod_eq_of_lt hn]

/-- **Writing changes nothing elsewhere.** -/
theorem cell_write_of_disjoint {a : Nat} (h : address + c.width ≤ a ∨ a + bs.length ≤ address) :
    (M.write a bs).cell c address = M.cell c address := by
  rw [cell, slice_write_of_disjoint h, cell]

/-! ### The operations of a buffer -/

theorem readAt?_eq {width : Nat} (h : address + width ≤ bs.length) :
    bs.readAt? address width = some (BigEndian.decode ((ofBytes bs).slice address width)) := by
  have hslice : (bs.drop address).take width = (ofBytes bs).slice address width := by
    refine List.ext_getElem (by simp [slice]; omega) fun i hi hi' => ?_
    have hlt : address + i < bs.length := by
      simp [slice] at hi'
      omega
    simp only [List.getElem_take, List.getElem_drop, slice, List.getElem_map, List.getElem_range,
      ofBytes]
    exact List.getElem_eq_getD 0
  rw [Bytes.readAt?, if_pos h, hslice]

theorem ofBytes_writeAt? (h : address + new.length ≤ bs.length) : ∃ bs',
    bs.writeAt? address new = some bs' ∧ bs'.length = bs.length ∧
      ofBytes bs' = (ofBytes bs).write address new := by
  refine ⟨bs.take address ++ new ++ bs.drop (address + new.length), if_pos h, ?_, ?_⟩
  · simp only [List.length_append, List.length_take, List.length_drop]
    omega
  · have hfront : (bs.take address).length = address := by
      rw [List.length_take]
      omega
    funext i
    simp only [ofBytes, write, List.getD_eq_getElem?_getD, List.append_assoc]
    -- an address lies before the new bytes, inside or behind them
    by_cases hbefore : i < address
    · rw [List.getElem?_append_left (by omega), List.getElem?_take_of_lt hbefore,
        if_neg (by omega)]
    · rw [List.getElem?_append_right (by omega), hfront]
      by_cases hinside : i < address + new.length
      · rw [List.getElem?_append_left (by omega), if_pos (by omega)]
      · rw [List.getElem?_append_right (by omega), List.getElem?_drop, if_neg (by omega)]
        congr 2
        omega

/-- A buffer of zeros that is filled from its beginning is the same memory. -/
theorem ofBytes_grown {size : Nat} (h : bs.length ≤ size) : ∃ bs',
    Bytes.writeAt? (.replicate size 0) 0 bs = some bs' ∧ bs'.length = size ∧
      ofBytes bs' = ofBytes bs := by
  have hroom : 0 + bs.length ≤ (List.replicate size (0 : UInt8)).length := by
    rw [List.length_replicate]
    omega
  obtain ⟨bs', hwrite, hlength, hmemory⟩ := ofBytes_writeAt? hroom
  refine ⟨bs', hwrite, by simpa using hlength, ?_⟩
  rw [hmemory]
  funext i
  -- an address lies in the old bytes, in the zeros behind them, or behind the buffer
  by_cases hi : i < bs.length
  · simp [write, ofBytes, hi]
  · by_cases hsize : i < size <;> simp [write, ofBytes, hi, hsize]

end Memory

/-! ### Copying into a larger buffer -/

/-- The buffer `b` was moved to its beginning, a buffer of `size` zeros was made, and `b` was copied
into it, with the heap after each of the three calls. -/
structure Heap.Copied (h : Heap) (o : Nat) (b : Buffer) (size : Nat) (h₁ h₂ h₃ : Heap) (new : Nat)
    (filled : Buffer) : Prop where
  /-- The buffer is moved. -/
  rewind : ∀ rest, Native.rewind.run? (.ref (some o) :: rest) h =
    some (.ref (some o) :: rest, h₁)
  /-- It still has its size. -/
  capacity : ∀ rest, Native.size.run? (.ref (some o) :: rest) h₁ =
    some (.int (.ofNat b.bytes.length) :: rest, h₁)
  /-- The other buffer is made. -/
  allocate : ∀ rest, Native.allocate.run? (.int (.ofNat size) :: rest) h₁ =
    some (.ref (some new) :: rest, h₂)
  /-- The contents are copied. -/
  copy : ∀ rest, Native.copy.run? (.ref (some o) :: .ref (some new) :: rest) h₂ =
    some (.ref (some new) :: rest, h₃)
  /-- The other buffer is there, and has the size. -/
  buffer : h₃.buffer? new = some filled ∧ filled.bytes.length = size
  /-- Its memory is the same. -/
  memory : Memory.ofBytes filled.bytes = .ofBytes b.bytes
  /-- The bytes of the old buffer are the same. -/
  old : ∃ position, h₃.buffer? o = some { b with position }
  /-- All static fields and instances are the same. -/
  statics : h₁.statics = h.statics ∧ h₂.statics = h.statics ∧ h₃.statics = h.statics
  /-- All instances are the same. -/
  instances : h.SameInstances h₃

/-- **A buffer is copied into a larger one** with the same memory. -/
theorem Heap.exists_copied {h : Heap} {o size : Nat} {b : Buffer} (hb : h.buffer? o = some b)
    (hle : b.bytes.length ≤ size) (hsize : size < 2 ^ 31) :
    ∃ h₁ h₂ h₃ new filled, h.Copied o b size h₁ h₂ h₃ new filled := by
  obtain ⟨bytes, hwrite, hlength, hbytes⟩ := Memory.ofBytes_grown hle
  let start : Buffer := { b with position := 0 }
  let zeros : Buffer := { bytes := .replicate size 0, position := 0 }
  let copied : Buffer := { b with position := b.bytes.length }
  let filled : Buffer := { bytes, position := b.bytes.length }
  let h₁ := h.put o (.buffer start)
  let new := h₁.objects.length
  let h₂ := (h₁.add (.buffer zeros)).2
  let h' := h₂.put new (.buffer filled)
  let h₃ := h'.put o (.buffer copied)
  have hne : new ≠ o := by
    have hold := Heap.lt_of_bind hb
    have hsame : new = h.objects.length := Heap.length_put h o _
    omega
  -- what each heap holds at the numbers of the two buffers
  have hstart₁ : h₁.buffer? o = some start := by rw [Heap.buffer?_put hb, if_pos rfl]
  have hstart₂ : h₂.buffer? o = some start := by
    rw [Heap.buffer?_add, if_neg hne.symm, hstart₁]
  have hzeros₂ : h₂.buffer? new = some zeros := by rw [Heap.buffer?_add, if_pos rfl]
  have hstart' : h'.buffer? o = some start := by
    rw [Heap.buffer?_put hzeros₂, if_neg hne.symm, hstart₂]
  have hfilled' : h'.buffer? new = some filled := by
    rw [Heap.buffer?_put hzeros₂, if_pos rfl]
  have hfilled₃ : h₃.buffer? new = some filled := by
    rw [Heap.buffer?_put hstart', if_neg hne, hfilled']
  have hcopied₃ : h₃.buffer? o = some copied := by rw [Heap.buffer?_put hstart', if_pos rfl]
  exact ⟨h₁, h₂, h₃, new, filled,
    { rewind := fun _ => Native.run?_rewind hb
      capacity := fun _ => Native.run?_size (b := start) hstart₁
      allocate := fun _ => Native.run?_allocate hsize
      copy := fun _ => Native.run?_copy (b := start) hne hstart₂ hzeros₂ rfl rfl hwrite
      buffer := ⟨hfilled₃, hlength⟩
      memory := hbytes
      old := ⟨_, hcopied₃⟩
      statics := ⟨rfl, rfl, rfl⟩
      instances := (Heap.sameInstances_put hb start).trans <| (h₁.sameInstances_add zeros).trans <|
        (Heap.sameInstances_put hzeros₂ filled).trans (Heap.sameInstances_put hstart' copied) }⟩

end ClassWeave
