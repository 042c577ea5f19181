import ClassWeave.Proofs.Instruction
import ClassWeave.Proofs.Verifier.Verified
import ClassWeave.Proofs.Weaving.Growth
import Mathlib.Data.List.Nodup
import Mathlib.Order.MinMax

/-!
# Checked code is verified

Code that was checked in pieces is listed instruction by instruction, each with its offset and the
types at hand in front of it.  Paths never leave the listing, since branches lead to instructions in
it that were checked with the same types.

* `Listed`, `Listing` : instructions in a row, and a whole body up to its return.
* `Located.exists_listing` : checked code has a listing.
* `Listing.flows_iff`, `goesOn`, `splits`, `mem_targets`, `isGreatest_depth` : where the paths
  through listed code come to, that they go on there, and how deep the operand stack gets.
-/

namespace ClassWeave

/-- An instruction at its place, with the types at hand in front of it. -/
structure Line where
  /-- Where it starts. -/
  offset : Nat
  /-- Its length. -/
  width : Nat
  /-- What it does. -/
  instr : Instr
  /-- The types at hand. -/
  typing : Typing

namespace Line

/-- Where a path stands in front of the instruction. -/
def point (l : Line) : Point := ⟨l.offset, l.typing⟩

/-- What the instruction adds to the depth of the operand stack. -/
def effect (l : Line) : Int := l.instr.effect

/-- The points of lines, and the one behind them. -/
def points (lines : List Line) (stop : Point) : List Point := lines.map point ++ [stop]

theorem mem_points {lines : List Line} {stop p : Point} (h : p ∈ points lines stop) :
    (∃ l ∈ lines, l.point = p) ∨ p = stop := by
  simpa [points] using h

end Line

open Line (points)

/-- Lines in a row that lead from one point to another. -/
inductive Listed (pool : ConstantPool) (code : Bytes) : Point → List Line → Point → Prop where
  | nil {p : Point} : Listed pool code p [] p
  | cons {offset width : Nat} {i : Instr} {s s' : Typing} {lines : List Line} {stop : Point} :
      Instr.decode? pool (code.drop offset) = some (i, width) →
      Instruction.lengthAt code offset = .ok width → 0 < width → i.transfer? s = some s' →
      Listed pool code ⟨offset + width, s'⟩ lines stop →
      Listed pool code ⟨offset, s⟩ (⟨offset, width, i, s⟩ :: lines) stop

namespace Listed

variable {pool : ConstantPool} {code : Bytes} {first mid stop : Point} {lines lines' : List Line}

theorem append (h : Listed pool code first lines mid) (h' : Listed pool code mid lines' stop) :
    Listed pool code first (lines ++ lines') stop := by
  induction h with
  | nil => exact h'
  | cons hdecode hlength hpos hs _ ih => exact .cons hdecode hlength hpos hs (ih h')

/-- A row begins at its first point. -/
theorem first_mem (h : Listed pool code first lines stop) : first ∈ points lines stop := by
  cases h with
  | nil => exact List.mem_singleton_self _
  | cons => exact List.mem_cons_self

/-- What is known of every line of a row. -/
theorem line (h : Listed pool code first lines stop) {l : Line} (hl : l ∈ lines) :
    Instr.decode? pool (code.drop l.offset) = some (l.instr, l.width) ∧
      Instruction.lengthAt code l.offset = .ok l.width ∧
      ∃ s, l.instr.transfer? l.typing = some s ∧ ⟨l.offset + l.width, s⟩ ∈ points lines stop := by
  induction h with
  | nil => cases hl
  | cons hdecode hlength _ hs hrest ih =>
    rcases List.mem_cons.1 hl with rfl | hl
    · exact ⟨hdecode, hlength, _, hs, List.mem_cons_of_mem _ hrest.first_mem⟩
    · obtain ⟨hdecode, hlength, s, hs, hmem⟩ := ih hl
      exact ⟨hdecode, hlength, s, hs, List.mem_cons_of_mem _ hmem⟩

/-- A path goes along the row. -/
theorem flows (h : Listed pool code first lines stop) {p : Point} (hp : p ∈ points lines stop) :
    Relation.ReflTransGen (Code.Flows pool code) first p := by
  induction h with
  | nil =>
    obtain rfl := List.mem_singleton.1 hp
    exact .refl
  | cons hdecode _ _ hs _ ih =>
    rcases List.mem_cons.1 hp with rfl | hp
    · exact .refl
    · exact .head (.next hdecode hs) (ih hp)

/-- The offsets of a row increase. -/
theorem pairwise (h : Listed pool code first lines stop) :
    ((points lines stop).map Point.offset).Pairwise (· < ·) ∧
      ∀ p ∈ points lines stop, first.offset ≤ p.offset := by
  induction h with
  | nil => exact ⟨List.pairwise_singleton _ _, fun p hp => (List.mem_singleton.1 hp) ▸ le_rfl⟩
  | @cons offset width i s s' lines stop _ _ hpos _ _ ih =>
    obtain ⟨hsorted, hle⟩ := ih
    have hlt : ∀ p ∈ points lines stop, offset < p.offset := by
      intro p hp
      have hp := hle p hp
      simp only at hp
      omega
    refine ⟨List.pairwise_cons.2 ⟨fun k hk => ?_, hsorted⟩, fun p hp => ?_⟩
    · obtain ⟨p, hp, rfl⟩ := List.mem_map.1 hk
      exact hlt p hp
    · rcases List.mem_cons.1 hp with rfl | hp
      · exact le_rfl
      · exact (hlt p hp).le

/-- The offset tells the point of a row. -/
theorem eq_of_offset_eq (h : Listed pool code first lines stop) {p q : Point}
    (hp : p ∈ points lines stop) (hq : q ∈ points lines stop) (heq : p.offset = q.offset) :
    p = q :=
  List.inj_on_of_nodup_map (h.pairwise.1.imp fun hlt => Nat.ne_of_lt hlt) hp hq heq

/-- The walk over the code finds the offsets of a row. -/
theorem offsetsFrom (h : Listed pool code first lines stop) {rest : List Nat}
    (hrest : Instruction.offsetsFrom 0 stop.offset (code.drop stop.offset) = .ok rest) :
    Instruction.offsetsFrom 0 first.offset (code.drop first.offset) =
      .ok (lines.map Line.offset ++ rest) := by
  induction h with
  | nil => exact hrest
  | cons _ hlength hpos _ _ ih =>
    rw [Instruction.offsetsFrom_drop hlength hpos, ih hrest]
    rfl

/-- **The greatest depth along a row** is the one that is kept count of. -/
theorem exists_deepest (h : Listed pool code first lines stop) (bound : Int)
    (hbound : first.typing.depth ≤ bound) : ∃ deepest,
      (lines.map Line.effect).foldl Body.track ((first.typing.depth : Int), bound) =
        ((stop.typing.depth : Int), deepest) ∧ bound ≤ deepest ∧
      (∀ p ∈ points lines stop, p.typing.depth ≤ deepest) ∧
      (deepest = bound ∨ ∃ p ∈ points lines stop, p.typing.depth = deepest) := by
  induction h generalizing bound with
  | @nil p =>
    refine ⟨bound, rfl, le_rfl, fun q hq => ?_, .inl rfl⟩
    obtain rfl := List.mem_singleton.1 hq
    exact hbound
  | @cons offset width i s s' lines stop _ _ _ hs hrest ih =>
    have hdepth := (Instr.changes_of_transfer? hs).depth
    obtain ⟨deepest, htrack, hle, hall, hsome⟩ := ih (max bound s'.depth) (le_max_right _ _)
    have hstep : Body.track ((s.depth : Int), bound) i.effect =
        ((s'.depth : Int), max bound s'.depth) := by
      simp only [Body.track, hdepth]
    refine ⟨deepest, ?_, (le_max_left _ _).trans hle, fun p hp => ?_, ?_⟩
    · rw [List.map_cons, List.foldl_cons]
      show List.foldl _ (Body.track ((s.depth : Int), bound) i.effect) _ = _
      rw [hstep, htrack]
    · rcases List.mem_cons.1 hp with rfl | hp
      · exact hbound.trans ((le_max_left _ _).trans hle)
      · exact hall p hp
    · rcases hsome with heq | ⟨p, hp, heq⟩
      · rcases max_choice bound (s'.depth : Int) with hmax | hmax
        · exact .inl (heq.trans hmax)
        · exact .inr ⟨_, List.mem_cons_of_mem _ hrest.first_mem, (heq.trans hmax).symm⟩
      · exact .inr ⟨p, List.mem_cons_of_mem _ hp, heq⟩

end Listed

/-! ### Instructions at their places -/

namespace Op

theorem fixedLength?_of_ofOpcode? : ∀ opcode : UInt8, (Instr.ofOpcode? opcode).isSome →
    Instruction.fixedLength? opcode = some 1 :=
  Instruction.forall_byte (by decide +kernel)

theorem fixedLength?_of_mem : ∀ opcode ∈ Instr.halfOpcodes,
    Instruction.fixedLength? opcode = some 3 := by
  decide +kernel

/-- An emitted instruction has its own length. -/
theorem length_bytes {pool : ConstantPool} {op : Op} {i : Instr} (h : op.instr? pool = some i)
    (offset : Nat) (rest : Bytes) :
    Instruction.length offset (op.bytes ++ rest) = .ok op.bytes.length := by
  cases op with
  | plain opcode =>
    have hfixed := fixedLength?_of_ofOpcode? opcode (Option.isSome_iff_exists.2 ⟨i, h⟩)
    exact Instruction.length_eq_ok.2 ⟨.fixed hfixed, by simp [bytes]⟩
  | byte opcode operand =>
    simp only [instr?] at h
    split_ifs at h with hopcode
    subst hopcode
    exact Instruction.length_eq_ok.2 ⟨.fixed rfl, by simp [bytes]⟩
  | half opcode operand =>
    have hfixed := fixedLength?_of_mem opcode (Instr.mem_halfOpcodes h)
    exact Instruction.length_eq_ok.2 ⟨.fixed hfixed, by simp [bytes, bytes16, BigEndian.encode]⟩

/-- The walk over a body finds the length of an emitted instruction. -/
theorem lengthAt {pool : ConstantPool} {op : Op} {i : Instr} (h : op.instr? pool = some i)
    (before rest : Bytes) :
    Instruction.lengthAt (before ++ (op.bytes ++ rest)) before.length = .ok op.bytes.length := by
  rw [Instruction.lengthAt, List.drop_left, length_bytes h]

/-- An emitted instruction in front of a row. -/
theorem row_cons {pool : ConstantPool} {op : Op} {i : Instr} (h : op.instr? pool = some i)
    {offset : Nat} {row : List Bytes} (hrow : Instruction.Row (offset + op.bytes.length) row) :
    Instruction.Row offset (op.bytes :: row) := by
  obtain ⟨opcode, w, hbytes⟩ := List.exists_cons_of_ne_nil op.bytes_ne_nil
  have hlength := length_bytes h offset []
  rw [List.append_nil] at hlength
  rw [hbytes] at hlength hrow ⊢
  exact .cons (Instruction.length_eq_ok.1 hlength).1 hrow

end Op

/-- Code in pieces is a row of instructions, so that the walk over it ends. -/
theorem Encodes.exists_row {pool : ConstantPool} {code : List Piece} {bs : Bytes}
    (h : Encodes pool code bs) (offset : Nat) :
    ∃ row, Instruction.Row offset row ∧ bs = row.flatten := by
  induction h generalizing offset with
  | nil => exact ⟨[], .nil, rfl⟩
  | plain hop _ ih =>
    obtain ⟨row, hrow, rfl⟩ := ih _
    exact ⟨_, Op.row_cons hop hrow, rfl⟩
  | @guarded test inner inside code bs _ hlen _ ihinner ih =>
    obtain ⟨inside', hinside, rfl⟩ := ihinner (offset + 3)
    obtain ⟨row, hrow, rfl⟩ := ih (offset + 3 + inside'.flatten.length)
    have hop := test.instr?_half pool hlen
    refine ⟨_, Op.row_cons hop (hinside.append hrow), ?_⟩
    rw [List.flatten_cons, List.flatten_append]

variable {pool : ConstantPool} {s s' : Typing}

/-- An emitted instruction is a row of one line. -/
theorem Listed.single {op : Op} {i : Instr} (h : op.instr? pool = some i)
    (hs : i.transfer? s = some s') (before rest : Bytes) :
    Listed pool (before ++ (op.bytes ++ rest)) ⟨before.length, s⟩
      [⟨before.length, op.bytes.length, i, s⟩] ⟨before.length + op.bytes.length, s'⟩ := by
  refine .cons ?_ (Op.lengthAt h before rest) (List.length_pos_of_ne_nil op.bytes_ne_nil) hs .nil
  rw [List.drop_left, Instr.decode?_bytes h]

/-- Instructions that do not branch are listed in a row. -/
theorem Encodes.exists_listed {inner : List Instr} {inside : Bytes}
    (h : Encodes pool (inner.map .plain) inside) (hs : Instr.through? inner s = some s')
    (before rest : Bytes) : ∃ lines, Listed pool (before ++ (inside ++ rest)) ⟨before.length, s⟩
      lines ⟨before.length + inside.length, s'⟩ ∧ lines.map Line.instr = inner ∧
        ∀ l ∈ lines, l.instr.distance? = none := by
  induction inner generalizing inside s before with
  | nil =>
    cases h
    cases hs
    exact ⟨[], .nil, rfl, fun l hl => absurd hl List.not_mem_nil⟩
  | cons i inner ih =>
    cases h with
    | @plain op _ _ bs hop hbs =>
      obtain ⟨t, ht, hs⟩ := Option.bind_eq_some_iff.1 hs
      obtain ⟨hdistance, ht⟩ := Instr.straight?_eq_some.1 ht
      obtain ⟨lines, hlines, hinstrs, hplain⟩ := ih hbs hs (before ++ op.bytes)
      rw [List.length_append, List.append_assoc, ← List.append_assoc op.bytes] at hlines
      rw [List.length_append, ← Nat.add_assoc]
      have hsingle := Listed.single hop ht before (bs ++ rest)
      rw [← List.append_assoc op.bytes] at hsingle
      refine ⟨_ :: lines, hsingle.append hlines, congrArg _ hinstrs, fun l hl => ?_⟩
      rcases List.mem_cons.1 hl with rfl | hl
      · exact hdistance
      · exact hplain l hl

/-! ### Listings -/

/-- A listing of code from a point to its end: lines in a row and the return behind them.  Branches
lead to points of the listing, with the types at hand there. -/
structure Listing (pool : ConstantPool) (result? : Option ValueType) (code : Bytes) (first : Point)
    (lines : List Line) (stop : Point) (targets : List Nat) (typings : List Typing) : Prop where
  /-- The lines in a row. -/
  row : Listed pool code first lines stop
  /-- The return at the end of the code. -/
  ret : ∃ width, Instr.decode? pool (code.drop stop.offset) = some (.ret result?, width) ∧
    Instruction.lengthAt code stop.offset = .ok width ∧ 0 < width ∧
    stop.offset + width = code.length
  /-- It gives what the method gives. -/
  gives : ∃ rest, stop.typing.stack = result?.toList ++ rest
  /-- Branches lead to points of the listing, with the same types at hand. -/
  branches : ∀ l ∈ lines, ∀ distance, l.instr.distance? = some distance →
    ∃ p ∈ points lines stop, (p.offset : Int) = l.offset + distance ∧
      l.instr.transfer? l.typing = some p.typing
  /-- The targets of the branches, and the types at hand there. -/
  reached : List.Forall₂ (fun target typing => ⟨target, typing⟩ ∈ points lines stop) targets typings
  /-- There are no other targets. -/
  targets : ∀ target, target ∈ targets ↔ ∃ l ∈ lines, ∃ distance,
    l.instr.distance? = some distance ∧ (target : Int) = l.offset + distance

namespace Listing

variable {result? : Option ValueType} {code : Bytes} {first mid stop : Point}
  {lines : List Line} {targets : List Nat} {typings : List Typing}

theorem mem_points_append (row : List Line) {p : Point} (hp : p ∈ points lines stop) :
    p ∈ points (row ++ lines) stop := by
  rw [points, List.map_append, List.append_assoc]
  exact List.mem_append_right _ hp

/-- Lines that do not branch, in front of a listing. -/
theorem prepend {row : List Line} (hrow : Listed pool code first row mid)
    (hplain : ∀ l ∈ row, l.instr.distance? = none)
    (h : Listing pool result? code mid lines stop targets typings) :
    Listing pool result? code first (row ++ lines) stop targets typings := by
  obtain ⟨hlisted, hret, hgives, hbranches, hreached, htargets⟩ := h
  refine ⟨hrow.append hlisted, hret, hgives, fun l hl distance hdistance => ?_,
    hreached.imp fun _ _ hp => mem_points_append row hp, fun target => ?_⟩
  · rcases List.mem_append.1 hl with hl | hl
    · rw [hplain l hl] at hdistance
      cases hdistance
    · obtain ⟨p, hp, hoffset, htyping⟩ := hbranches l hl distance hdistance
      exact ⟨p, mem_points_append row hp, hoffset, htyping⟩
  · rw [htargets]
    constructor
    · rintro ⟨l, hl, hdistance⟩
      exact ⟨l, List.mem_append_right _ hl, hdistance⟩
    · rintro ⟨l, hl, distance, hdistance, htarget⟩
      rcases List.mem_append.1 hl with hl | hl
      · rw [hplain l hl] at hdistance
        cases hdistance
      · exact ⟨l, hl, distance, hdistance, htarget⟩

/-- A branch in front of a listing, to one of its points. -/
theorem branch {offset width target : Nat} {i : Instr} {distance : Int} {t : Typing}
    (hline : Listed pool code ⟨offset, s⟩ [⟨offset, width, i, s⟩] mid)
    (h : Listing pool result? code mid lines stop targets typings)
    (hi : i.transfer? s = some t) (hdistance : i.distance? = some distance)
    (htarget : (target : Int) = offset + distance)
    (hmem : ⟨target, t⟩ ∈ points lines stop) :
    Listing pool result? code ⟨offset, s⟩ (⟨offset, width, i, s⟩ :: lines) stop
      (target :: targets) (t :: typings) := by
  obtain ⟨hlisted, hret, hgives, hbranches, hreached, htargets⟩ := h
  refine ⟨hline.append hlisted, hret, hgives, fun l hl d hd => ?_,
    .cons (List.mem_cons_of_mem _ hmem) (hreached.imp fun _ _ hp => List.mem_cons_of_mem _ hp),
    fun k => ?_⟩
  · rcases List.mem_cons.1 hl with rfl | hl
    · obtain rfl := Option.some_inj.1 (hdistance.symm.trans hd)
      exact ⟨_, List.mem_cons_of_mem _ hmem, htarget, hi⟩
    · obtain ⟨p, hp, hoffset, htyping⟩ := hbranches l hl d hd
      exact ⟨p, List.mem_cons_of_mem _ hp, hoffset, htyping⟩
  · rw [List.mem_cons, htargets]
    constructor
    · rintro (rfl | ⟨l, hl, hd⟩)
      · exact ⟨_, List.mem_cons_self, distance, hdistance, htarget⟩
      · exact ⟨l, List.mem_cons_of_mem _ hl, hd⟩
    · rintro ⟨l, hl, d, hd, hk⟩
      rcases List.mem_cons.1 hl with rfl | hl
      · obtain rfl := Option.some_inj.1 (hdistance.symm.trans hd)
        simp only at hk
        exact .inl (by omega)
      · exact .inr ⟨l, hl, d, hd, hk⟩

/-- A return at the end of the code. -/
theorem last {op : Op} {before : Bytes} (hop : op.instr? pool = some (.ret result?))
    (hgives : ∃ rest, s.stack = result?.toList ++ rest) :
    Listing pool result? (before ++ op.bytes) ⟨before.length, s⟩ [] ⟨before.length, s⟩ [] [] := by
  have hlength := Op.lengthAt hop before []
  have hdecode := Instr.decode?_bytes hop []
  rw [List.append_nil] at hlength hdecode
  refine ⟨.nil, ⟨op.bytes.length, ?_, hlength, List.length_pos_of_ne_nil op.bytes_ne_nil, ?_⟩,
    hgives, fun l hl => absurd hl List.not_mem_nil, .nil, ?_⟩
  · rw [List.drop_left, hdecode]
  · rw [List.length_append]
  · simp

/-- A branch over instructions that do not branch themselves, in front of a listing. -/
theorem skipping {test : Test} {op : Op} {inner : List Instr} {inside before bs : Bytes}
    {t : Typing} (hop : op.instr? pool = some (test.jump (op.bytes.length + inside.length : Nat)))
    (ht : (test.jump 0).transfer? s = some t) (hinner : Encodes pool (inner.map .plain) inside)
    (hthrough : Instr.through? inner t = some t)
    (h : Listing pool result? (before ++ (op.bytes ++ (inside ++ bs)))
      ⟨before.length + (op.bytes.length + inside.length), t⟩ lines stop targets typings) :
    ∃ row, row.map Line.effect = test.effect :: inner.map Instr.effect ∧
      Listing pool result? (before ++ (op.bytes ++ (inside ++ bs))) ⟨before.length, s⟩
        (row ++ lines) stop ((before.length + (op.bytes.length + inside.length)) :: targets)
        (t :: typings) := by
  have hjump := (test.transfer?_jump (op.bytes.length + inside.length : Nat) s).trans ht
  have hline := Listed.single hop hjump before (inside ++ bs)
  obtain ⟨row, hrow, hinstrs, hplain⟩ := hinner.exists_listed hthrough (before ++ op.bytes) bs
  rw [List.append_assoc, List.length_append, Nat.add_assoc] at hrow
  have hbehind := mem_points_append row h.row.first_mem
  refine ⟨_ :: row, ?_, (h.prepend hrow hplain).branch hline hjump (test.distance?_jump _)
    (by push_cast; rfl) hbehind⟩
  rw [List.map_cons, ← hinstrs, List.map_map]
  exact congrArg (· :: _) (test.effect_jump _)

end Listing

/-- **Checked code has a listing**, wherever it stands.  The lines have the effects of the code. -/
theorem Located.exists_listing {result? : Option ValueType} {start : Nat} {code : List Piece}
    {bs : Bytes} {targets : List Nat} {typings : List Typing}
    (h : Located pool start code bs targets) (hcheck : Piece.check? result? code s = some typings)
    (before : Bytes) (hbefore : before.length = start) : ∃ lines stop,
      Listing pool result? (before ++ bs) ⟨start, s⟩ lines stop targets typings ∧
        Piece.effectsOf code = lines.map Line.effect ++ [(Instr.ret result?).effect] := by
  induction h generalizing s before typings with
  | nil => cases hcheck
  | @plain start op i code bs targets hop hrest ih =>
    subst hbefore
    by_cases hret : ∃ type?, i = .ret type?
    · -- the return comes last
      obtain ⟨type?, rfl⟩ := hret
      simp only [Piece.check?] at hcheck
      split_ifs at hcheck with hend
      obtain ⟨rfl, rfl, htake⟩ := hend
      cases hcheck
      cases hrest
      obtain ⟨rest, htake⟩ := Option.ne_none_iff_exists'.1 htake
      rw [List.append_nil]
      exact ⟨[], _, .last hop ⟨rest, Typing.take?_eq_some.1 htake⟩, rfl⟩
    · rw [Piece.check?_plain fun type? heq => hret ⟨type?, heq⟩] at hcheck
      obtain ⟨s', hs', hcheck⟩ := Option.bind_eq_some_iff.1 hcheck
      obtain ⟨hdistance, hs'⟩ := Instr.straight?_eq_some.1 hs'
      obtain ⟨lines, stop, hlisting, heffects⟩ :=
        ih hcheck (before ++ op.bytes) (List.length_append ..)
      rw [List.append_assoc] at hlisting
      refine ⟨_ :: lines, stop, hlisting.prepend (.single hop hs' _ _) fun l hl => ?_, ?_⟩
      · obtain rfl := List.mem_singleton.1 hl
        exact hdistance
      · show i.effect :: Piece.effectsOf code = _
        rw [heffects]
        rfl
  | @guarded start test inner inside code bs targets hinner hlen hrest ih =>
    subst hbefore
    obtain ⟨t, ht, hcheck⟩ := Option.bind_eq_some_iff.1 hcheck
    split_ifs at hcheck with hthrough
    obtain ⟨typings, hcode, rfl⟩ := Option.map_eq_some_iff.1 hcheck
    have hop := test.instr?_half pool hlen
    have hwidth :
        (Op.half test.opcode (UInt16.ofNat (3 + inside.length))).bytes.length = 3 := rfl
    generalize Op.half test.opcode (UInt16.ofNat (3 + inside.length)) = op at hop hwidth ⊢
    rw [← hwidth] at hop ih ⊢
    obtain ⟨lines, stop, hlisting, heffects⟩ := ih hcode (before ++ (op.bytes ++ inside))
      (by rw [List.length_append, List.length_append])
    rw [List.append_assoc, List.append_assoc] at hlisting
    obtain ⟨row, hrow, hlisting⟩ := hlisting.skipping hop ht hinner hthrough
    refine ⟨row ++ lines, stop, hlisting, ?_⟩
    rw [List.map_append, List.append_assoc, hrow, ← heffects]
    rfl

/-! ### Listed bodies are verified -/

namespace Listing

variable {result? : Option ValueType} {code : Bytes} {first stop : Point} {lines : List Line}
  {targets : List Nat} {typings : List Typing}

/-- Paths never leave the listing. -/
theorem mem_of_flows (h : Listing pool result? code first lines stop targets typings) {p q : Point}
    (hp : p ∈ points lines stop) (hflows : Code.Flows pool code p q) : q ∈ points lines stop := by
  obtain ⟨l, hl, rfl⟩ | rfl := Line.mem_points hp
  · obtain ⟨hdecode, -, s, hs, hmem⟩ := h.row.line hl
    cases hflows with
    | next hdecode' hs' =>
      obtain ⟨rfl, rfl⟩ := Prod.mk.inj (Option.some_inj.1 (hdecode.symm.trans hdecode'))
      obtain rfl := Option.some_inj.1 (hs.symm.trans hs')
      exact hmem
    | jump hdecode' hs' hdistance htarget =>
      obtain ⟨rfl, rfl⟩ := Prod.mk.inj (Option.some_inj.1 (hdecode.symm.trans hdecode'))
      obtain ⟨q, hq, hoffset, htyping⟩ := h.branches l hl _ hdistance
      obtain rfl := Option.some_inj.1 (htyping.symm.trans hs')
      obtain rfl := Int.ofNat_inj.1 (htarget.trans hoffset.symm)
      exact hq
  · obtain ⟨width, hdecode, -⟩ := h.ret
    cases hflows with
    | next hdecode' hs' | jump hdecode' hs' =>
      obtain ⟨rfl, rfl⟩ := Prod.mk.inj (Option.some_inj.1 (hdecode.symm.trans hdecode'))
      cases hs'

/-- Paths from the first point come to the points of the listing. -/
theorem flows_iff (h : Listing pool result? code first lines stop targets typings) {p : Point} :
    Relation.ReflTransGen (Code.Flows pool code) first p ↔ p ∈ points lines stop := by
  refine ⟨fun hp => ?_, h.row.flows⟩
  induction hp with
  | refl => exact h.row.first_mem
  | tail _ hstep ih => exact h.mem_of_flows ih hstep

theorem goesOn (h : Listing pool result? code first lines stop targets typings) {p : Point}
    (hp : p ∈ points lines stop) : Code.GoesOn pool code result? p := by
  obtain ⟨l, hl, rfl⟩ | rfl := Line.mem_points hp
  · obtain ⟨hdecode, -, s, hs, -⟩ := h.row.line hl
    exact ⟨l.instr, l.width, hdecode, .inl ⟨s, hs⟩⟩
  · obtain ⟨width, hdecode, -⟩ := h.ret
    exact ⟨_, width, hdecode, .inr ⟨rfl, h.gives⟩⟩

/-- The code splits into the instructions of the listing. -/
theorem splits (h : Listing pool result? code ⟨0, s⟩ lines stop targets typings) :
    Code.Splits pool code ((points lines stop).map Point.offset) := by
  obtain ⟨width, hdecode, hlength, hpos, hend⟩ := h.ret
  refine ⟨?_, fun start hstart => ?_, fun start hstart i w distance hi hdistance => ?_⟩
  · have hlast : Instruction.offsetsFrom 0 stop.offset (code.drop stop.offset) =
        .ok [stop.offset] := by
      rw [Instruction.offsetsFrom_drop hlength hpos, hend, List.drop_length]
      rfl
    have hwalk := h.row.offsetsFrom hlast
    rw [List.drop_zero] at hwalk
    rw [points, List.map_append, List.map_map]
    exact hwalk
  · obtain ⟨p, hp, rfl⟩ := List.mem_map.1 hstart
    obtain ⟨l, hl, rfl⟩ | rfl := Line.mem_points hp
    · obtain ⟨hdecode, hlength, -⟩ := h.row.line hl
      exact ⟨l.instr, l.width, hdecode, hlength⟩
    · exact ⟨_, width, hdecode, hlength⟩
  · obtain ⟨p, hp, rfl⟩ := List.mem_map.1 hstart
    obtain ⟨l, hl, rfl⟩ | rfl := Line.mem_points hp
    · obtain ⟨hdecode, -⟩ := h.row.line hl
      obtain ⟨rfl, rfl⟩ := Prod.mk.inj (Option.some_inj.1 (hdecode.symm.trans hi))
      obtain ⟨q, hq, hoffset, -⟩ := h.branches l hl _ hdistance
      exact ⟨q.offset, List.mem_map_of_mem hq, hoffset⟩
    · obtain ⟨rfl, rfl⟩ := Prod.mk.inj (Option.some_inj.1 (hdecode.symm.trans hi))
      cases hdistance

/-- The targets of the listing are where its branches lead. -/
theorem mem_targets (h : Listing pool result? code first lines stop targets typings)
    {target : Nat} : target ∈ targets ↔ ∃ start ∈ (points lines stop).map Point.offset,
      Code.Jumps pool code start target := by
  rw [h.targets]
  constructor
  · rintro ⟨l, hl, distance, hdistance, htarget⟩
    have hpoint : l.point ∈ points lines stop :=
      List.mem_append_left _ (List.mem_map_of_mem hl)
    exact ⟨l.offset, List.mem_map.2 ⟨l.point, hpoint, rfl⟩, l.instr, l.width, distance,
      (h.row.line hl).1, hdistance, htarget⟩
  · rintro ⟨start, hstart, i, width, distance, hi, hdistance, htarget⟩
    obtain ⟨p, hp, rfl⟩ := List.mem_map.1 hstart
    obtain ⟨l, hl, rfl⟩ | rfl := Line.mem_points hp
    · obtain ⟨hdecode, -⟩ := h.row.line hl
      obtain ⟨rfl, rfl⟩ := Prod.mk.inj (Option.some_inj.1 (hdecode.symm.trans hi))
      exact ⟨l, hl, distance, hdistance, htarget⟩
    · obtain ⟨_, hdecode, -⟩ := h.ret
      obtain ⟨rfl, rfl⟩ := Prod.mk.inj (Option.some_inj.1 (hdecode.symm.trans hi))
      cases hdistance

/-- **The greatest depth** that a path comes to. -/
theorem isGreatest_depth (h : Listing pool result? code first lines stop targets typings)
    (hempty : first.typing.depth = 0) : IsGreatest
      {depth : Int | ∃ p, Relation.ReflTransGen (Code.Flows pool code) first p ∧
        p.typing.depth = depth}
      ((lines.map Line.effect ++ [(Instr.ret result?).effect]).foldl Body.track (0, 0)).2 := by
  obtain ⟨deepest, htrack, hle, hall, hsome⟩ :=
    h.row.exists_deepest 0 (by rw [hempty]; rfl)
  have hstart : ((first.typing.depth : Int), (0 : Int)) = (0, 0) := by
    rw [hempty]
    rfl
  rw [hstart] at htrack
  have hstop := hall stop (List.mem_append_right _ (List.mem_singleton_self _))
  have hlast : ((lines.map Line.effect ++ [(Instr.ret result?).effect]).foldl Body.track
      (0, 0)).2 = deepest := by
    rw [List.foldl_append, htrack]
    show max deepest ((stop.typing.depth : Int) + -(ValueType.slotsOf result?.toList : Int)) = _
    omega
  rw [hlast]
  refine ⟨?_, ?_⟩
  · rcases hsome with rfl | ⟨p, hp, heq⟩
    · exact ⟨first, .refl, by rw [hempty]; rfl⟩
    · exact ⟨p, h.flows_iff.2 hp, heq⟩
  · rintro depth ⟨p, hp, rfl⟩
    exact hall p (h.flows_iff.1 hp)

end Listing

end ClassWeave
