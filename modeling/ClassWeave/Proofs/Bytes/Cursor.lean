import ClassWeave.Bytes.Cursor
import ClassWeave.Proofs.Bytes.Reading
import Mathlib.Algebra.GroupWithZero.Nat
import Mathlib.Logic.Relation

/-!
# What a cursor does

A step reads the bytes in front of the cursor and moves the cursor behind them, or it fails.  Which
values it reads from which bytes is a relation, `Step.Reads`, that does not speak of failures; a
step succeeds just when there is a value that it reads from bytes in front of the cursor.  A step
that fails puts the cursor back to where it found it, except for a table, which leaves it where its
items left it.

There is a third way to end.  A read of bytes adds its count to the position without a check, as a
skip does, and when the sum does not fit into 64 bits the program stops, however it was built: the
sum is refused, or it wraps around to a position before the cursor and there is no such range of
bytes.  So the failure that is meant for a count of more bytes than are left is missed by counts of
almost `2 ^ 64`.  `Step.Sound.stopped_iff` tells that the program stops there and nowhere else.

* `Scalar.IsReading` : the value of a number of a kind, most significant byte first.
* `Outcome.Meets` : what is known of an outcome, in each of the three cases.
* `Step.Reads`, `Step.ReadsAll` : the value of a step, the bytes it is read from, and the same for
  steps in a row.
* `Step.succeeds` : a step that reads a value yields it.
* `Step.Calls`, `Step.Reaches` : the steps that a table or a block carries out, and those at every
  depth, with the cursors that they start at.
* `Step.SkipsFit`, `Step.Stops` : the sums of all skips fit into 64 bits; that of a read of bytes
  does not.
* `Step.explained` : what comes of a step where the sums of its skips fit.
* `Step.Sound` : what holds of a step at a cursor.
* `Cursor.sound_of_calls` : it holds of every step at every depth, whatever was carried out before.
-/

namespace ClassWeave

namespace Scalar

/-- The value is the number that the bytes are, most significant byte first; of a signed kind, the
one that is the same modulo the width and not further from zero than half of it. -/
def IsReading (kind : Scalar) (bs : Bytes) (value : Int) : Prop :=
  bs.length = kind.width ∧ value % (256 ^ kind.width : Nat) = BigEndian.decode bs ∧
    if kind.isSigned then
      -(256 ^ kind.width : Nat) ≤ 2 * value ∧ 2 * value < (256 ^ kind.width : Nat)
    else 0 ≤ value ∧ value < (256 ^ kind.width : Nat)

theorem isReading_iff {kind : Scalar} {bs : Bytes} {value : Int} :
    kind.IsReading bs value ↔
      bs.length = kind.width ∧ value = kind.ofBits (BigEndian.decode bs) := by
  refine and_congr_right fun hlength => ?_
  have hlt : BigEndian.decode bs < 256 ^ kind.width := hlength ▸ BigEndian.decode_lt bs
  generalize BigEndian.decode bs = bits at hlt ⊢
  cases kind <;>
    simp only [width, isSigned, ofBits, Int.bmod_def, if_true, Bool.false_eq_true, if_false,
      Nat.reducePow] at hlt ⊢ <;>
    omega

end Scalar

theorem Overflow.add_of_lt {o : Overflow} {position : Nat} {count : UInt64}
    (h : position + count.toNat < 2 ^ 64) :
    o.add position count = some (position + count.toNat) :=
  if_pos h

namespace Outcome

variable {α β : Type} {r : Outcome α} {c : Cursor} {cause : Malformation}

theorem bind_eq_error {f : α → Cursor → Outcome β} :
    r.bind f = .error cause c ↔
      r = .error cause c ∨ ∃ v c₁, r = .ok v c₁ ∧ f v c₁ = .error cause c := by
  cases r <;> simp [bind, and_assoc]

theorem map_eq_error {f : α → β} : r.map f = .error cause c ↔ r = .error cause c := by
  simp [map, bind_eq_error]

end Outcome

namespace Cursor

variable {o : Overflow} {c c' : Cursor} {n : Nat} {count : UInt64} {bs front back : Bytes}
  {cause : Malformation}

/-- The position is in the buffer, or at its end. -/
def Inside (c : Cursor) : Prop := c.position ≤ c.data.size

/-- The bytes in front of the cursor. -/
def rest (c : Cursor) : Bytes := c.data.toList.drop c.position

/-- The cursor moved over `n` bytes. -/
def forward (c : Cursor) (n : Nat) : Cursor := { c with position := c.position + n }

@[simp] theorem data_forward : (c.forward n).data = c.data := rfl

@[simp] theorem position_forward : (c.forward n).position = c.position + n := rfl

theorem forward_forward (m n : Nat) : (c.forward m).forward n = c.forward (m + n) := by
  simp [forward, Nat.add_assoc]

theorem rest_forward : (c.forward n).rest = c.rest.drop n := by
  simp [rest]

theorem length_rest : c.rest.length = c.data.size - c.position := by
  simp [rest]

/-- Bytes in front of the cursor end inside the buffer. -/
theorem Inside.add_le (hc : c.Inside) (h : bs <+: c.rest) :
    c.position + bs.length ≤ c.data.size := by
  have hle := h.length_le
  rw [length_rest] at hle
  rw [Inside] at hc
  omega

theorem Inside.forward (hc : c.Inside) (h : bs <+: c.rest) : (c.forward bs.length).Inside :=
  hc.add_le h

theorem exists_prefix_rest (h : c.position + n ≤ c.data.size) :
    ∃ bs, bs <+: c.rest ∧ bs.length = n := by
  refine ⟨c.rest.take n, List.take_prefix n c.rest, ?_⟩
  rw [List.length_take, length_rest]
  omega

theorem between_forward (h : bs <+: c.rest) : c.between (c.forward bs.length) = bs := by
  rw [between, Array.toList_extract, List.extract_eq_take_drop, position_forward,
    Nat.add_sub_cancel_left]
  exact (List.prefix_iff_eq_take.1 h).symm

/-- Bytes in front of a cursor, and bytes in front of it when it has moved over them. -/
theorem append_prefix_rest :
    front ++ back <+: c.rest ↔ front <+: c.rest ∧ back <+: (c.forward front.length).rest := by
  constructor
  · rintro ⟨more, hmore⟩
    rw [List.append_assoc] at hmore
    refine ⟨⟨back ++ more, hmore⟩, more, ?_⟩
    rw [rest_forward, ← hmore, List.drop_left]
  · rintro ⟨⟨more, hmore⟩, hback⟩
    rw [rest_forward, ← hmore, List.drop_left] at hback
    rw [← hmore]
    exact (List.prefix_append_right_inj front).2 hback

/-! ### Numbers, skips and bytes -/

theorem number_eq_ok (hc : c.Inside) (h : bs <+: c.rest) :
    c.number bs.length = .ok (BigEndian.decode bs) (c.forward bs.length) := by
  have hle := hc.add_le h
  rw [number, if_pos ⟨Nat.lt_of_le_of_lt hle c.size_lt, hle⟩]
  exact congrArg (fun bs => Outcome.ok (BigEndian.decode bs) _) (between_forward h)

theorem advance_eq_ok (hc : c.Inside) (h : bs <+: c.rest) (hcount : count.toNat = bs.length) :
    c.advance o count = .ok () (c.forward bs.length) := by
  have hle := hc.add_le h
  rw [advance, Overflow.add_of_lt (hcount ▸ Nat.lt_of_le_of_lt hle c.size_lt), hcount]
  exact if_pos hle

theorem bytes_eq_ok (hc : c.Inside) (h : bs <+: c.rest) (hcount : count.toNat = bs.length) :
    c.bytes o count = .ok bs (c.forward bs.length) := by
  have hle : c.position ≤ (c.forward bs.length).position := Nat.le_add_right ..
  rw [bytes, advance_eq_ok hc h hcount, Outcome.bind, if_pos hle, between_forward h]

theorem number_eq_error (h : c.data.size < c.position + n) : c.number n = .error .truncated c :=
  if_neg fun hle => Nat.not_le.2 h hle.2

theorem advance_eq_error (h : c.data.size < c.position + count.toNat)
    (hfit : c.position + count.toNat < 2 ^ 64) : c.advance o count = .error .truncated c := by
  rw [advance, Overflow.add_of_lt hfit]
  exact if_neg (Nat.not_le.2 h)

theorem bytes_eq_error (h : c.data.size < c.position + count.toNat)
    (hfit : c.position + count.toNat < 2 ^ 64) : c.bytes o count = .error .truncated c := by
  rw [bytes, advance_eq_error h hfit, Outcome.bind]

/-- A read of bytes whose sum does not fit stops the program: either the sum itself does, or it
wraps around to a position before the cursor. -/
theorem bytes_eq_stopped (hc : c.Inside) (h : 2 ^ 64 ≤ c.position + count.toNat) :
    c.bytes o count = .stopped := by
  have hlt : c.position < 2 ^ 64 := Nat.lt_of_le_of_lt hc c.size_lt
  have hcount : count.toNat < 2 ^ 64 := count.toNat_lt
  cases o with
  | stops =>
    have hadd : Overflow.stops.add c.position count = none := if_neg (Nat.not_lt.2 h)
    rw [bytes, advance, hadd, Outcome.bind]
  | wraps =>
    have hadd : Overflow.wraps.add c.position count =
        some ((c.position + count.toNat) % 2 ^ 64) := if_neg (Nat.not_lt.2 h)
    have hback : (c.position + count.toNat) % 2 ^ 64 < c.position := by omega
    have hle : (c.position + count.toNat) % 2 ^ 64 ≤ c.data.size :=
      Nat.le_trans (Nat.le_of_lt hback) hc
    simp only [bytes, advance, hadd, if_pos hle, Outcome.bind, if_neg (Nat.not_le.2 hback)]

theorem eq_of_number_eq_error (h : c.number n = .error cause c') : c' = c := by
  rw [number] at h
  split at h <;> cases h
  rfl

theorem eq_of_advance_eq_error (h : c.advance o count = .error cause c') : c' = c := by
  rw [advance] at h
  split at h
  · cases h
  · split at h <;> cases h
    rfl

theorem eq_of_bytes_eq_error (h : c.bytes o count = .error cause c') : c' = c := by
  rw [bytes] at h
  obtain h | ⟨_, c₁, -, h⟩ := Outcome.bind_eq_error.1 h
  · exact eq_of_advance_eq_error h
  · split at h <;> cases h

end Cursor

namespace Outcome

open Cursor

variable {α β : Type} {o : Overflow} {r : Outcome α} {c c' : Cursor} {n : Nat} {count : UInt64}
  {reads : α → Bytes → Prop} {reads' : β → Bytes → Prop} {stops stops' : Prop}

/-- What is known of an outcome that came of `c`.  A value is one that `reads` has for bytes in
front of `c`, and the cursor has moved over them; a failure is for want of bytes, and leaves the
cursor inside the same buffer, not before `c`; the program has stopped only if `stops`. -/
def Meets (c : Cursor) (reads : α → Bytes → Prop) (stops : Prop) : Outcome α → Prop
  | .ok v c' => ∃ bs, reads v bs ∧ bs <+: c.rest ∧ c' = c.forward bs.length
  | .error cause c' =>
    cause = .truncated ∧ c'.data = c.data ∧ c'.Inside ∧ c.position ≤ c'.position
  | .stopped => stops

theorem meets_error (hc : c.Inside) : (error .truncated c : Outcome α).Meets c reads stops :=
  ⟨rfl, rfl, hc, Nat.le_refl _⟩

theorem Meets.inside (hr : r.Meets c reads stops) (hc : c.Inside) (h : r.cursor? = some c') :
    c'.data = c.data ∧ c'.Inside ∧ c.position ≤ c'.position := by
  cases r with
  | ok v next =>
    obtain rfl : next = c' := Option.some.inj h
    obtain ⟨bs, -, hnext, rfl⟩ := hr
    exact ⟨rfl, hc.forward hnext, Nat.le_add_right ..⟩
  | error cause next =>
    obtain rfl : next = c' := Option.some.inj h
    exact hr.2
  | stopped => cases h

theorem Meets.bind {f : α → Cursor → Outcome β} (hr : r.Meets c reads stops)
    (hstops : stops → stops')
    (hf : ∀ v front, r = .ok v (c.forward front.length) → reads v front → front <+: c.rest →
      (f v (c.forward front.length)).Meets (c.forward front.length)
        (fun w back => reads' w (front ++ back)) stops') :
    (r.bind f).Meets c reads' stops' := by
  cases r with
  | ok v c₁ =>
    obtain ⟨front, hfront, hnext, rfl⟩ := hr
    have hrest := hf v front rfl hfront hnext
    rw [Outcome.bind]
    revert hrest
    cases f v (c.forward front.length) with
    | ok w c₂ =>
      rintro ⟨back, hback, hnext', rfl⟩
      exact ⟨front ++ back, hback, append_prefix_rest.2 ⟨hnext, hnext'⟩,
        by rw [forward_forward, List.length_append]⟩
    | error cause c₂ =>
      rintro ⟨hcause, hdata, hinside, hle⟩
      exact ⟨hcause, hdata, hinside, Nat.le_trans (Nat.le_add_right ..) hle⟩
    | stopped => exact id
  | error cause c₁ => exact hr
  | stopped => exact hstops hr

theorem Meets.map {f : α → β} (hr : r.Meets c reads stops) (hstops : stops → stops')
    (hf : ∀ v bs, reads v bs → reads' (f v) bs) : (r.map f).Meets c reads' stops' :=
  hr.bind hstops fun v bs _ hbs _ =>
    ⟨[], by simpa using hf v bs hbs, List.nil_prefix, rfl⟩

theorem meets_number (hc : c.Inside) :
    (c.number n).Meets c (fun bits bs => bs.length = n ∧ bits = BigEndian.decode bs) False := by
  by_cases h : c.position + n ≤ c.data.size
  · obtain ⟨bs, hnext, rfl⟩ := exists_prefix_rest h
    rw [number_eq_ok hc hnext]
    exact ⟨bs, ⟨rfl, rfl⟩, hnext, rfl⟩
  · rw [number_eq_error (Nat.not_le.1 h)]
    exact meets_error hc

theorem meets_advance (hc : c.Inside) (hfit : c.position + count.toNat < 2 ^ 64) :
    (c.advance o count).Meets c (fun _ bs => count.toNat = bs.length) False := by
  by_cases h : c.position + count.toNat ≤ c.data.size
  · obtain ⟨bs, hnext, hcount⟩ := exists_prefix_rest h
    rw [advance_eq_ok hc hnext hcount.symm]
    exact ⟨bs, hcount.symm, hnext, rfl⟩
  · rw [advance_eq_error (Nat.not_le.1 h) hfit]
    exact meets_error hc

theorem meets_bytes (hc : c.Inside) :
    (c.bytes o count).Meets c (fun v bs => v = bs ∧ count.toNat = bs.length)
      (2 ^ 64 ≤ c.position + count.toNat) := by
  by_cases h : c.position + count.toNat ≤ c.data.size
  · obtain ⟨bs, hnext, hcount⟩ := exists_prefix_rest h
    rw [bytes_eq_ok hc hnext hcount.symm]
    exact ⟨bs, ⟨rfl, hcount.symm⟩, hnext, rfl⟩
  · by_cases hfit : c.position + count.toNat < 2 ^ 64
    · rw [bytes_eq_error (Nat.not_le.1 h) hfit]
      exact meets_error hc
    · rw [bytes_eq_stopped hc (Nat.not_lt.1 hfit)]
      exact Nat.not_lt.1 hfit

end Outcome

namespace Step

variable {o : Overflow} {s item : Step} {steps : List Step} {c c₁ : Cursor} {v : StepValue}
  {vs : List StepValue} {bs : Bytes} {x y z : Step × Cursor}

/-- Induction over the tree of a step. -/
@[elab_as_elim]
theorem tree_induction {P : Step → Prop} (scalar : ∀ kind, P (.scalar kind))
    (bytes : ∀ count, P (.bytes count)) (advance : ∀ count, P (.advance count))
    (table : ∀ item, P item → P (.table item))
    (block : ∀ steps, (∀ s ∈ steps, P s) → P (.block steps)) (look : P .look) (s : Step) : P s :=
  @Step.rec P (fun steps => ∀ s ∈ steps, P s) scalar bytes advance table block look
    (by simp) (fun _ _ hs hsteps => List.forall_mem_cons.2 ⟨hs, hsteps⟩) s

/-! ### What steps read -/

mutual

/-- Carried out at `c`, the step yields the value from the bytes. -/
inductive Reads : Step → Cursor → StepValue → Bytes → Prop
  /-- A number is read from as many bytes as its kind has. -/
  | scalar {kind : Scalar} {c : Cursor} {bs : Bytes} {value : Int} : kind.IsReading bs value →
      Reads (.scalar kind) c (.scalar kind value) bs
  /-- The value of bytes is the bytes. -/
  | bytes {count : UInt64} {c : Cursor} {bs : Bytes} : count.toNat = bs.length →
      Reads (.bytes count) c (.bytes bs) bs
  /-- Of skipped bytes nothing is told. -/
  | advance {count : UInt64} {c : Cursor} {bs : Bytes} : count.toNat = bs.length →
      Reads (.advance count) c .skipped bs
  /-- A half word tells how many items there are, and they follow it in a row. -/
  | table {item : Step} {c : Cursor} {count rows : Bytes} {vs : List StepValue} :
      count.length = 2 →
      ReadsAll (List.replicate (BigEndian.decode count) item) (c.forward count.length) vs rows →
      Reads (.table item) c (.list vs) (count ++ rows)
  /-- The steps of a block read in a row. -/
  | block {steps : List Step} {c : Cursor} {vs : List StepValue} {bs : Bytes} :
      ReadsAll steps c vs bs → Reads (.block steps) c (.list vs) bs
  /-- A look reads nothing. -/
  | look {c : Cursor} : Reads .look c (.seen c.position c.data.size) []

/-- Carried out at `c` in a row, the steps yield the values from the bytes. -/
inductive ReadsAll : List Step → Cursor → List StepValue → Bytes → Prop
  | nil {c : Cursor} : ReadsAll [] c [] []
  | cons {s : Step} {steps : List Step} {c : Cursor} {v : StepValue} {vs : List StepValue}
      {front back : Bytes} : Reads s c v front → ReadsAll steps (c.forward front.length) vs back →
      ReadsAll (s :: steps) c (v :: vs) (front ++ back)

end

mutual

/-- How many bytes a step that yields the value has read or skipped. -/
def size : Step → StepValue → Nat
  | .scalar kind, _ => kind.width
  | .bytes count, _ => count.toNat
  | .advance count, _ => count.toNat
  | .table item, .list vs => 2 + (vs.map (size item)).sum
  | .block steps, .list vs => sizes steps vs
  | _, _ => 0

/-- How many bytes steps in a row that yield the values have read or skipped. -/
def sizes : List Step → List StepValue → Nat
  | s :: steps, v :: vs => size s v + sizes steps vs
  | _, _ => 0

end

theorem length_eq_sizes (hsteps : ∀ s ∈ steps, ∀ c v bs, Reads s c v bs → bs.length = s.size v)
    (h : ReadsAll steps c vs bs) : bs.length = sizes steps vs := by
  induction steps generalizing c vs bs with
  | nil =>
    cases h
    rfl
  | cons s steps ih =>
    rw [List.forall_mem_cons] at hsteps
    cases h with
    | cons hs hrow => rw [List.length_append, sizes, hsteps.1 _ _ _ hs, ih hsteps.2 hrow]

theorem sizes_replicate {n : Nat} (h : ReadsAll (List.replicate n item) c vs bs) :
    sizes (List.replicate n item) vs = (vs.map (size item)).sum := by
  induction n generalizing c vs bs with
  | zero =>
    cases h
    rfl
  | succ n ih =>
    rw [List.replicate_succ] at h ⊢
    cases h with
    | cons hs hrow => rw [sizes, ih hrow, List.map_cons, List.sum_cons]

/-- The bytes that a value is read from are as many as the step reads and skips. -/
theorem Reads.length_eq (h : Reads s c v bs) : bs.length = s.size v := by
  induction s using tree_induction generalizing c v bs with
  | scalar kind =>
    cases h with
    | scalar h => exact h.1
  | bytes count =>
    cases h with
    | bytes h => exact h.symm
  | advance count =>
    cases h with
    | advance h => exact h.symm
  | table item ih =>
    cases h with
    | table hcount hrows =>
      rw [List.length_append, size, hcount, ← sizes_replicate hrows]
      refine congrArg (2 + ·) (length_eq_sizes (fun s hs c v bs h => ?_) hrows)
      obtain rfl := List.eq_of_mem_replicate hs
      exact ih h
  | block steps ih =>
    cases h with
    | block h => exact length_eq_sizes (fun s hs c v bs h => ih s hs h) h
  | look =>
    cases h
    rfl

/-! ### Steps in a row -/

attribute [local simp] run runAll

/-- The items of a table are steps in a row. -/
theorem repeated_run (item : Step) (n : Nat) (c : Cursor) :
    repeated (item.run o) n c = runAll o (List.replicate n item) c := by
  induction n generalizing c with
  | zero =>
    rw [List.replicate_zero, repeated, runAll]
  | succ n ih =>
    rw [List.replicate_succ, repeated, runAll]
    simp only [ih]

theorem run_table : (table item).run o c =
    (c.number 2).bind fun count c' => (runAll o (List.replicate count item) c').map .list := by
  rw [run]
  simp only [repeated_run]

theorem run_block_eq_stopped : (block steps).run o c = .stopped ↔ runAll o steps c = .stopped := by
  rw [run]
  cases runAll o steps c <;> simp

/-! ### Reading is succeeding -/

/-- Where the step reads a value from bytes in front of a cursor inside its buffer, it yields that
value and moves the cursor behind them. -/
def Succeeds (o : Overflow) (s : Step) : Prop :=
  ∀ c v bs, c.Inside → s.Reads c v bs → bs <+: c.rest → s.run o c = .ok v (c.forward bs.length)

theorem runAll_eq_ok (hsteps : ∀ s ∈ steps, s.Succeeds o) (hc : c.Inside)
    (h : ReadsAll steps c vs bs) (hnext : bs <+: c.rest) :
    runAll o steps c = .ok vs (c.forward bs.length) := by
  induction steps generalizing c vs bs with
  | nil =>
    cases h
    rw [runAll]
    rfl
  | cons s steps ih =>
    rw [List.forall_mem_cons] at hsteps
    cases h with
    | @cons _ _ _ v vs front back hfront hback =>
      obtain ⟨hnext, hnext'⟩ := Cursor.append_prefix_rest.1 hnext
      rw [runAll, hsteps.1 c v front hc hfront hnext, Outcome.bind,
        ih hsteps.2 (hc.forward hnext) hback hnext', Cursor.forward_forward, List.length_append]
      rfl

theorem succeeds (s : Step) : s.Succeeds o := by
  induction s using tree_induction with
  | scalar kind =>
    rintro c v bs hc ⟨hvalue⟩ hnext
    obtain ⟨hlength, rfl⟩ := Scalar.isReading_iff.1 hvalue
    rw [run, ← hlength, Cursor.number_eq_ok hc hnext]
    rfl
  | bytes count =>
    rintro c v bs hc ⟨hcount⟩ hnext
    rw [run, Cursor.bytes_eq_ok hc hnext ‹_›]
    rfl
  | advance count =>
    rintro c v bs hc ⟨⟩ hnext
    rw [run, Cursor.advance_eq_ok hc hnext ‹_›]
    rfl
  | table item ih =>
    intro c v bs hc h hnext
    cases h with
    | @table _ _ count rows vs hlength hrows =>
      obtain ⟨hnext, hnext'⟩ := Cursor.append_prefix_rest.1 hnext
      have hitems : ∀ s ∈ List.replicate (BigEndian.decode count) item, s.Succeeds o :=
        fun s hs => List.eq_of_mem_replicate hs ▸ ih
      rw [run_table, ← hlength, Cursor.number_eq_ok hc hnext, Outcome.bind,
        runAll_eq_ok hitems (hc.forward hnext) hrows hnext', Cursor.forward_forward,
        List.length_append]
      rfl
  | block steps ih =>
    intro c v bs hc h hnext
    cases h with
    | block h => rw [run, runAll_eq_ok ih hc h hnext]
  | look =>
    rintro c v bs hc ⟨⟩ hnext
    rw [run]
    rfl

theorem run_block_eq_ok : (block steps).run o c = .ok v c₁ ↔
    ∃ vs, v = .list vs ∧ runAll o steps c = .ok vs c₁ := by
  rw [run]
  cases runAll o steps c with
  | ok vs c' =>
    constructor
    · rintro ⟨⟩
      exact ⟨vs, rfl, rfl⟩
    · rintro ⟨_, rfl, ⟨⟩⟩
      rfl
  | error cause c' => simp
  | stopped => simp

theorem run_block_eq_error {cause : Malformation} (h : (block steps).run o c = .error cause c₁) :
    c₁ = c := by
  rw [run] at h
  revert h
  cases runAll o steps c with
  | ok vs c' => nofun
  | error cause c' => exact fun h => (Outcome.error.inj h).2.symm
  | stopped => nofun

/-- A step that fails leaves the cursor where it was, unless it is a table. -/
theorem eq_of_run_eq_error {cause : Malformation} (hs : ∀ item, s ≠ .table item)
    (h : s.run o c = .error cause c₁) : c₁ = c := by
  cases s with
  | scalar kind =>
    rw [run] at h
    exact Cursor.eq_of_number_eq_error (Outcome.map_eq_error.1 h)
  | bytes count =>
    rw [run] at h
    exact Cursor.eq_of_bytes_eq_error (Outcome.map_eq_error.1 h)
  | advance count =>
    rw [run] at h
    exact Cursor.eq_of_advance_eq_error (Outcome.map_eq_error.1 h)
  | table item => exact absurd rfl (hs item)
  | block steps => exact run_block_eq_error h
  | look =>
    rw [run] at h
    cases h

/-! ### The steps inside a step -/

/-- The steps that a table or a block carries out, each with the cursor that it starts at.  A block
carries out its first step, and those behind it only if the first one succeeded; a table first reads
how many items there are, and then is as a block of so many. -/
inductive Calls (o : Overflow) : Step × Cursor → Step × Cursor → Prop
  | first {s : Step} {steps : List Step} {c : Cursor} : Calls o (.block (s :: steps), c) (s, c)
  | later {s : Step} {steps : List Step} {c c₁ : Cursor} {v : StepValue} {called : Step × Cursor} :
      s.run o c = .ok v c₁ → Calls o (.block steps, c₁) called →
      Calls o (.block (s :: steps), c) called
  | item {item : Step} {c c₁ : Cursor} {count : Nat} {called : Step × Cursor} :
      c.number 2 = .ok count c₁ → Calls o (.block (List.replicate count item), c₁) called →
      Calls o (.table item, c) called

/-- The steps at every depth of a step, itself among them, with the cursors that they start at. -/
abbrev Reaches (o : Overflow) : Step × Cursor → Step × Cursor → Prop :=
  Relation.ReflTransGen (Calls o)

/-- The sums of all skips that are carried out fit into 64 bits. -/
def SkipsFit (o : Overflow) (s : Step) (c : Cursor) : Prop :=
  ∀ count c', Reaches o (s, c) (.advance count, c') → c'.position + count.toNat < 2 ^ 64

/-- A read of bytes is carried out whose sum does not fit into 64 bits. -/
def Stops (o : Overflow) (s : Step) (c : Cursor) : Prop :=
  ∃ count c', Reaches o (s, c) (.bytes count, c') ∧ 2 ^ 64 ≤ c'.position + count.toNat

/-- What carries out whatever another step does reaches what that step reaches, apart from the step
itself. -/
theorem reaches_of_calls (h : ∀ w, Calls o y w → Calls o x w) (hne : y ≠ z)
    (hz : Reaches o y z) : Reaches o x z := by
  obtain rfl | ⟨w, hw, hwz⟩ := hz.cases_head
  · exact absurd rfl hne
  · exact .head (h w hw) hwz

theorem SkipsFit.of_calls (h : SkipsFit o s c) (hcall : Calls o (s, c) x) : x.1.SkipsFit o x.2 :=
  fun count c' hreach => h count c' (.head hcall hreach)

theorem Stops.of_calls (hcall : Calls o (s, c) x) (h : x.1.Stops o x.2) : s.Stops o c := by
  obtain ⟨count, c', hreach, hsum⟩ := h
  exact ⟨count, c', .head hcall hreach, hsum⟩

/-- A block passes on to `x` what it does itself. -/
theorem SkipsFit.of_block (h : ∀ w, Calls o (.block steps, c₁) w → Calls o (s, c) w)
    (hs : SkipsFit o s c) : (block steps).SkipsFit o c₁ :=
  fun count c' hreach => hs count c' (reaches_of_calls h (by simp) hreach)

theorem Stops.of_block (h : ∀ w, Calls o (.block steps, c₁) w → Calls o (s, c) w)
    (hs : (block steps).Stops o c₁) : s.Stops o c := by
  obtain ⟨count, c', hreach, hsum⟩ := hs
  exact ⟨count, c', reaches_of_calls h (by simp) hreach, hsum⟩

/-! ### What comes of a step -/

/-- At a cursor inside its buffer, where all sums of skips fit, the step yields a value that it
reads there, or bytes are missing, or it stops the program. -/
def Explained (o : Overflow) (s : Step) : Prop :=
  ∀ c, c.Inside → s.SkipsFit o c → (s.run o c).Meets c (s.Reads c) (s.Stops o c)

theorem meets_runAll (hsteps : ∀ s ∈ steps, s.Explained o) (hc : c.Inside)
    (hskips : (block steps).SkipsFit o c) :
    (runAll o steps c).Meets c (ReadsAll steps c) ((block steps).Stops o c) := by
  induction steps generalizing c with
  | nil =>
    rw [runAll]
    exact ⟨[], .nil, List.nil_prefix, rfl⟩
  | cons s steps ih =>
    rw [List.forall_mem_cons] at hsteps
    rw [runAll]
    refine (hsteps.1 c hc (hskips.of_calls .first)).bind (.of_calls .first)
      fun v front hs hfront hnext => ?_
    exact (ih hsteps.2 (hc.forward hnext) (hskips.of_block fun _ => .later hs)).map
      (.of_block fun _ => .later hs) fun vs back hback => .cons hfront hback

/-- **What comes of a step.** -/
theorem explained (s : Step) : s.Explained o := by
  induction s using tree_induction with
  | scalar kind =>
    intro c hc _
    rw [run]
    refine (Outcome.meets_number hc).map False.elim fun bits bs hbits => ?_
    obtain ⟨hlength, rfl⟩ := hbits
    exact .scalar (Scalar.isReading_iff.2 ⟨hlength, rfl⟩)
  | bytes count =>
    intro c hc _
    rw [run]
    refine (Outcome.meets_bytes hc).map (fun h => ⟨count, c, .refl, h⟩) fun v bs hv => ?_
    obtain ⟨rfl, hcount⟩ := hv
    exact .bytes hcount
  | advance count =>
    intro c hc hskips
    rw [run]
    exact (Outcome.meets_advance hc (hskips count c .refl)).map False.elim
      fun _ bs hcount => .advance hcount
  | table item ih =>
    intro c hc hskips
    rw [run_table]
    refine (Outcome.meets_number hc).bind False.elim fun n count hcount hn hnext => ?_
    obtain ⟨hlength, rfl⟩ := hn
    have hitems : ∀ s ∈ List.replicate (BigEndian.decode count) item, s.Explained o :=
      fun s hs => List.eq_of_mem_replicate hs ▸ ih
    exact (meets_runAll hitems (hc.forward hnext) (hskips.of_block fun _ => .item hcount)).map
      (.of_block fun _ => .item hcount) fun vs rows hrows => .table hlength hrows
  | block steps ih =>
    intro c hc hskips
    have h := meets_runAll ih hc hskips
    rw [run]
    revert h
    cases runAll o steps c with
    | ok vs c' =>
      rintro ⟨bs, hbs, hnext, rfl⟩
      exact ⟨bs, .block hbs, hnext, rfl⟩
    | error cause c' =>
      rintro ⟨rfl, -⟩
      exact Outcome.meets_error hc
    | stopped => exact id
  | look =>
    intro c hc _
    rw [run]
    exact ⟨[], .look, List.nil_prefix, rfl⟩

/-- A step that carries out one that stops the program stops it. -/
theorem Calls.stopped (h : Calls o x y) (hy : y.1.run o y.2 = .stopped) :
    x.1.run o x.2 = .stopped := by
  induction h with
  | first =>
    rw [run_block_eq_stopped, runAll, hy]
    rfl
  | later hs _ ih =>
    have hrow := run_block_eq_stopped.1 (ih hy)
    rw [run_block_eq_stopped, runAll, hs, Outcome.bind, hrow]
    rfl
  | item hcount _ ih =>
    have hrow := run_block_eq_stopped.1 (ih hy)
    rw [run_table, hcount, Outcome.bind, hrow]
    rfl

/-- The cursors of the steps that a step carries out are inside the same buffer. -/
theorem Calls.inside (h : Calls o x y) (hx : x.2.Inside) (hskips : x.1.SkipsFit o x.2) :
    y.2.Inside ∧ y.2.data = x.2.data := by
  induction h with
  | first => exact ⟨hx, rfl⟩
  | @later s _ c _ _ _ hs _ ih =>
    obtain ⟨hdata, hinside, -⟩ :=
      (s.explained c hx (hskips.of_calls .first)).inside hx (by rw [hs]; rfl)
    rw [← hdata]
    exact ih hinside (hskips.of_block fun _ => .later hs)
  | item hcount _ ih =>
    obtain ⟨hdata, hinside, -⟩ := (Outcome.meets_number hx).inside hx (by rw [hcount]; rfl)
    rw [← hdata]
    exact ih hinside (hskips.of_block fun _ => .item hcount)

/-- So are those of the steps at every depth. -/
theorem inside_of_reaches (h : Reaches o x y) (hx : x.2.Inside) (hskips : x.1.SkipsFit o x.2) :
    y.2.Inside ∧ y.2.data = x.2.data ∧ y.1.SkipsFit o y.2 := by
  induction h with
  | refl => exact ⟨hx, rfl, hskips⟩
  | tail _ hcall ih =>
    obtain ⟨hinside, hdata, hskips⟩ := ih
    obtain ⟨hinside', hdata'⟩ := hcall.inside hinside hskips
    exact ⟨hinside', hdata'.trans hdata, hskips.of_calls hcall⟩

theorem stopped_of_reaches (h : Reaches o x y) (hy : y.1.run o y.2 = .stopped) :
    x.1.run o x.2 = .stopped := by
  induction h using Relation.ReflTransGen.head_induction_on with
  | refl => exact hy
  | head hcall _ ih => exact hcall.stopped ih

theorem Stops.run_eq (h : s.Stops o c) (hc : c.Inside) (hskips : s.SkipsFit o c) :
    s.run o c = .stopped := by
  obtain ⟨count, c', hreach, hsum⟩ := h
  refine stopped_of_reaches hreach ?_
  rw [run, Cursor.bytes_eq_stopped (inside_of_reaches hreach hc hskips).1 hsum]
  rfl

/-- What holds of a step that is carried out at a cursor. -/
structure Sound (o : Overflow) (s : Step) (c : Cursor) : Prop where
  /-- Before the step the cursor is inside the buffer. -/
  inside : c.position ≤ c.data.size
  /-- The program stops just when a read of bytes is carried out whose sum does not fit into 64
  bits. -/
  stopped_iff : s.run o c = .stopped ↔
    ∃ count c', Reaches o (s, c) (.bytes count, c') ∧ 2 ^ 64 ≤ c'.position + count.toNat
  /-- After the step, whether it failed or not, the cursor is inside the same buffer and has not
  moved back. -/
  inside_after : ∀ c', (s.run o c).cursor? = some c' →
    c'.data = c.data ∧ c'.position ≤ c.data.size ∧ c.position ≤ c'.position
  /-- The step succeeds just when it reads its value from the bytes in front of the cursor. -/
  ok_iff : ∀ v, (∃ c', s.run o c = .ok v c') ↔ ∃ bs, bs <+: c.rest ∧ s.Reads c v bs
  /-- Then the cursor has moved by what was read and skipped, and the value is that of the bytes
  that it has moved over. -/
  advanced : ∀ v c', s.run o c = .ok v c' →
    c'.position = c.position + s.size v ∧ s.Reads c v (c.between c')
  /-- A step fails for want of bytes. -/
  cause_eq : ∀ cause c', s.run o c = .error cause c' → cause = .truncated
  /-- A read, a skip or a block that fails leaves the cursor where it was. -/
  unmoved : (∀ item, s ≠ .table item) → ∀ cause c', s.run o c = .error cause c' → c' = c
  /-- A block that succeeds leaves the cursor where its steps left it. -/
  kept : ∀ steps, s = .block steps → ∀ v c', s.run o c = .ok v c' →
    ∃ vs, v = .list vs ∧ runAll o steps c = .ok vs c'

/-! ### Counts for which all sums of skips fit -/

mutual

/-- The counts of the skips in the tree of a step. -/
def skips : Step → List UInt64
  | .advance count => [count]
  | .table item => skips item
  | .block steps => skipsAll steps
  | .scalar _ | .bytes _ | .look => []

/-- The counts of the skips in the trees of steps. -/
def skipsAll : List Step → List UInt64
  | [] => []
  | s :: steps => skips s ++ skipsAll steps

end

theorem mem_skips_of_replicate {n : Nat} {count : UInt64}
    (h : count ∈ skipsAll (List.replicate n item)) : count ∈ item.skips := by
  induction n with
  | zero => simp [skipsAll] at h
  | succ n ih =>
    rw [List.replicate_succ, skipsAll, List.mem_append] at h
    exact h.elim id ih

/-- All sums of skips fit where the counts in the tree do, counted from the end of the buffer. -/
def Bounded (o : Overflow) (s : Step) : Prop :=
  ∀ c, c.Inside → (∀ count ∈ s.skips, c.data.size + count.toNat < 2 ^ 64) → s.SkipsFit o c

theorem skipsFit_block (hsteps : ∀ s ∈ steps, s.Bounded o) (hc : c.Inside)
    (h : ∀ count ∈ skipsAll steps, c.data.size + count.toNat < 2 ^ 64) :
    (block steps).SkipsFit o c := by
  intro count c' hreach
  induction steps generalizing c with
  | nil =>
    obtain heq | ⟨x, hcall, -⟩ := hreach.cases_head
    · cases heq
    · cases hcall
  | cons s steps ih =>
    rw [List.forall_mem_cons] at hsteps
    simp only [skipsAll, List.forall_mem_append] at h
    have hs : s.SkipsFit o c := hsteps.1 c hc h.1
    obtain heq | ⟨x, hcall, hreach⟩ := hreach.cases_head
    · cases heq
    · cases hcall with
      | first => exact hs count c' hreach
      | later hrun hcall =>
        obtain ⟨hdata, hinside, -⟩ := (s.explained c hc hs).inside hc (by rw [hrun]; rfl)
        exact ih hsteps.2 hinside (hdata ▸ h.2) (.head hcall hreach)

theorem skipsFit_of_skips (s : Step) : s.Bounded o := by
  induction s using tree_induction with
  | advance count =>
    intro c hc h count' c' hreach
    obtain heq | ⟨x, hcall, -⟩ := hreach.cases_head
    · cases heq
      have hlt := h count (by simp [skips])
      rw [Cursor.Inside] at hc
      omega
    · cases hcall
  | table item ih =>
    intro c hc h count c' hreach
    obtain heq | ⟨x, hcall, hreach⟩ := hreach.cases_head
    · cases heq
    · cases hcall with
      | @item _ _ _ n _ hcount hcall =>
        obtain ⟨hdata, hinside, -⟩ := (Outcome.meets_number hc).inside hc (by rw [hcount]; rfl)
        have hitems : ∀ s ∈ List.replicate n item, s.Bounded o :=
          fun s hs => List.eq_of_mem_replicate hs ▸ ih
        rw [← hdata] at h
        exact skipsFit_block hitems hinside
          (fun count hmem => h count (by rw [skips]; exact mem_skips_of_replicate hmem))
          count c' (.head hcall hreach)
  | block steps ih => exact fun c hc h => skipsFit_block ih hc h
  | scalar kind | bytes count | look =>
    intro c _ _ count' c' hreach
    obtain heq | ⟨x, hcall, -⟩ := hreach.cases_head
    · cases heq
    · cases hcall

theorem sound (s : Step) (hc : c.Inside) (hskips : s.SkipsFit o c) : s.Sound o c := by
  have hmeets := s.explained c hc hskips
  have hok : ∀ v c', s.run o c = .ok v c' →
      ∃ bs, s.Reads c v bs ∧ bs <+: c.rest ∧ c' = c.forward bs.length := fun v c' h => by
    rw [h] at hmeets
    exact hmeets
  constructor
  case inside => exact hc
  case stopped_iff =>
    refine ⟨fun h => ?_, fun h => Stops.run_eq h hc hskips⟩
    rw [h] at hmeets
    exact hmeets
  case inside_after =>
    intro c' h
    obtain ⟨hdata, hinside, hle⟩ := hmeets.inside hc h
    rw [Cursor.Inside, hdata] at hinside
    exact ⟨hdata, hinside, hle⟩
  case ok_iff =>
    intro v
    constructor
    · rintro ⟨c', h⟩
      obtain ⟨bs, hreads, hnext, -⟩ := hok v c' h
      exact ⟨bs, hnext, hreads⟩
    · rintro ⟨bs, hnext, hreads⟩
      exact ⟨_, s.succeeds c v bs hc hreads hnext⟩
  case advanced =>
    intro v c' h
    obtain ⟨bs, hreads, hnext, rfl⟩ := hok v c' h
    rw [Cursor.between_forward hnext, ← hreads.length_eq]
    exact ⟨rfl, hreads⟩
  case cause_eq =>
    intro cause c' h
    rw [h] at hmeets
    exact hmeets.1
  case unmoved => exact fun hs cause c' h => eq_of_run_eq_error hs h
  case kept =>
    rintro steps rfl v c' h
    exact run_block_eq_ok.1 h

end Step

namespace Cursor

open Step

variable {o : Overflow} {start c : Cursor} {called : Step × Cursor}

/-- One step is carried out, in which the sums of skips fit, and the cursor goes on from where it
then stands, whatever became of the step. -/
def Moves (o : Overflow) (c c' : Cursor) : Prop :=
  ∃ s : Step, s.SkipsFit o c ∧ (s.run o c).cursor? = some c'

theorem inside_of_moves (h : Relation.ReflTransGen (Moves o) start c) (hstart : start.Inside) :
    c.Inside ∧ c.data = start.data := by
  induction h with
  | refl => exact ⟨hstart, rfl⟩
  | tail _ hmove ih =>
    obtain ⟨hinside, hdata⟩ := ih
    obtain ⟨s, hskips, hs⟩ := hmove
    obtain ⟨hdata', hinside', -⟩ := (s.sound hinside hskips).inside_after _ hs
    rw [← hdata'] at hinside'
    exact ⟨hinside', hdata'.trans hdata⟩

/-- **A cursor is sound under any nesting.**  Take a cursor that came from the start of `bs` by any
steps, failing or not, and a step `s` at it, in all of which no sum of a skip goes beyond 64 bits.
Then `s` and all that it carries out at any depth are sound: the position never leaves the buffer, a
step that fails does not move it unless it is a table, a step that succeeds moves it by what was
read and skipped and yields the value of the bytes in between, and the program stops at the reads of
bytes whose sums go beyond 64 bits, where a failure was meant. -/
theorem sound_of_calls (o : Overflow) {bs : Bytes} (hbs : bs.length < 2 ^ 64) {s : Step}
    (hc : Relation.ReflTransGen (Moves o) (ofBytes bs hbs) c) (hskips : s.SkipsFit o c)
    (h : Reaches o (s, c) called) :
    called.2.data = bs.toArray ∧ called.1.Sound o called.2 := by
  obtain ⟨hinside, hdata⟩ := inside_of_moves hc (Nat.zero_le _)
  obtain ⟨hinside', hdata', hskips'⟩ := inside_of_reaches h hinside hskips
  exact ⟨hdata'.trans hdata, called.1.sound hinside' hskips'⟩

/-- After a skip that fails and a byte, a block reads a table of two blocks with a number each, and
fails at the half word behind it.  The second number is a negative one; the block goes back behind
the first byte.  A block that behind another byte reads `2 ^ 64 - 1` bytes stops the program,
however it was built. -/
theorem sound_of_calls_nested :
    let start := ofBytes [1, 0, 2, 7, 0xFF, 5] (by decide)
    let c := start.forward 1
    let s := Step.block [.table (.block [.scalar .i8]), .scalar .u16]
    let endless := Step.block [.scalar .u8, .bytes 0xFFFFFFFFFFFFFFFF]
    Relation.ReflTransGen (Moves .wraps) start c ∧ s.SkipsFit .wraps c ∧
      Reaches .wraps (s, c) (.scalar .i8, c.forward 3) ∧
      (Step.scalar .i8).Reads (c.forward 3) (.scalar .i8 (-1)) [0xFF] ∧
      s.run .wraps c = .error .truncated c ∧
      endless.run .wraps c = .stopped ∧ endless.run .stops c = .stopped := by
  intro start c s endless
  have hinside : c.Inside := show 1 ≤ 6 by decide
  have hmoves : ∀ o, Relation.ReflTransGen (Moves o) start c := fun o =>
    .head ⟨.advance 9, skipsFit_of_skips _ start (Nat.zero_le _) (by simp [start, ofBytes, skips]),
      by cases o <;> rfl⟩
      (.single ⟨.bytes 1, skipsFit_of_skips _ start (Nat.zero_le _) (by simp [skips]), by
        cases o <;> rfl⟩)
  have hskips : s.SkipsFit .wraps c := skipsFit_of_skips s c hinside (by simp [s, skips, skipsAll])
  have hfits : ∀ o, endless.SkipsFit o c := fun o =>
    skipsFit_of_skips endless c hinside (by simp [endless, skips, skipsAll])
  have hcount : c.number 2 = .ok 2 (c.forward 2) := by cbv
  have hbyte : ∀ o, (Step.scalar .u8).run o c = .ok (.scalar .u8 0) (c.forward 1) := fun o => by
    cbv
  have hseven : (c.forward 2).number 1 = .ok 7 (c.forward 3) := by cbv
  have hnegative : (c.forward 3).number 1 = .ok 0xFF (c.forward 4) := by cbv
  have hvalue : (Step.scalar .i8).run .wraps (c.forward 3) =
      .ok (.scalar .i8 (-1)) (c.forward 4) := by
    rw [run, Scalar.width, hnegative]
    rfl
  have hfirst : (Step.block [.scalar .i8]).run .wraps (c.forward 2) =
      .ok (.list [.scalar .i8 7]) (c.forward 3) := by
    rw [run, runAll, run, Scalar.width, hseven]
    rfl
  have hfail : s.run .wraps c = .error .truncated c := by
    simp only [s, run, runAll, hcount]
    rfl
  have hitem :
      Calls .wraps (.table (.block [.scalar .i8]), c) (.block [.scalar .i8], c.forward 3) :=
    .item hcount (.later hfirst .first)
  have hreach : Reaches .wraps (s, c) (.scalar .i8, c.forward 3) :=
    .head .first (.head hitem (.single .first))
  have hread := ((sound_of_calls _ _ (hmoves _) hskips hreach).2.advanced _ _ hvalue).2
  have hstopped : ∀ o, endless.run o c = .stopped := fun o =>
    (sound_of_calls o _ (hmoves o) (hfits o) .refl).2.stopped_iff.2
      ⟨_, c.forward 1, .single (.later (hbyte o) .first), by decide⟩
  exact ⟨hmoves _, hskips, hreach, hread, hfail, hstopped _, hstopped _⟩

end Cursor

end ClassWeave
