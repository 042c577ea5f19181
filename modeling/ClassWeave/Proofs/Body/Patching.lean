import ClassWeave.Body.Listing
import ClassWeave.Proofs.Weaving.Overflow
import Mathlib.Data.List.Pairwise

/-!
# Pointing branches at their targets

A body keeps no record of its branches.  Patching looks at the length of the body alone, so it
accepts every place behind which two more bytes have been written and from which the distance fits
a half word.  All branches lie at such places, and patching one of them leaves the others alone.
So do places that hold something else, and patching these overwrites the operand of another
instruction, or the instructions behind it: whoever patches has to keep the starts that the branches
were written at.

* `Sketch` : a body with the starts of its branches, and how directives change it.
* `Body.Patched` : two bodies that differ in one distance.
* `Body.exists_patch_iff`, `Body.patched_of_patch` : when patching succeeds, and what it does.
* `Sketch.IsLaidOut` : branches lie inside of the body, and apart from each other;
  `Sketch.isLaidOut_after`, `Sketch.isLaidOut_afterAll`.
* `Sketch.patches_iff` : what patching does after any directives.
-/

namespace ClassWeave

/-! ### One patch -/

namespace Body

variable {b b' : Body} {start : Nat}

/-- The bodies differ in the distance of a branch, at most. -/
structure Patched (b : Body) (start distance : Nat) (b' : Body) : Prop where
  /-- The next instruction will start where it would have. -/
  position : b'.position = b.position
  /-- The depth of the operand stack is the same. -/
  depth : b'.depth = b.depth
  /-- So is the greatest depth. -/
  deepest : b'.deepest = b.deepest
  /-- The distance stands behind the first byte, its high byte in front. -/
  distance : (b'.code.toList.drop (start + 1)).take 2 = BigEndian.encode 2 distance
  /-- All other bytes are the same. -/
  others : ∀ i, i ≠ start + 1 → i ≠ start + 2 → b'.code[i]? = b.code[i]?

/-- Patching succeeds just when two more bytes follow and the distance fits a half word. -/
theorem exists_patch_iff (hinside : start < b.position) (hstart : start ≤ farthestStart) :
    (∃ b', b.patch start = .ok b') ↔
      start + 3 ≤ b.position ∧ b.position - start ≤ 32767 := by
  unfold patch
  rw [Nat.min_eq_left hstart]
  simp only
  split_ifs with hfar hlast
  · exact ⟨nofun, by omega⟩
  · exact ⟨fun _ => ⟨hlast, by omega⟩, fun _ => ⟨_, rfl⟩⟩
  · exact ⟨nofun, fun h => absurd h.1 hlast⟩

/-- What patching does when it succeeds. -/
theorem patched_of_patch (hstart : start ≤ farthestStart) (h : b.patch start = .ok b') :
    b.Patched start (b.position - start) b' := by
  unfold patch at h
  rw [Nat.min_eq_left hstart] at h
  simp only at h
  split_ifs at h with hfar hlast
  obtain rfl := Except.ok.inj h
  have hsize : start + 2 < b.code.size := hlast
  have hword : (((b.position : Int) - (start : Nat)) % 65536).toNat = b.position - start := by
    omega
  rw [hword]
  refine ⟨by simp [position], rfl, rfl, ?_, fun i hhigh hlow => ?_⟩
  · refine List.ext_getElem? fun i => ?_
    rw [List.getElem?_take, List.getElem?_drop]
    obtain rfl | rfl | hi : i = 0 ∨ i = 1 ∨ 2 ≤ i := by omega
    · simp [BigEndian.encode, show start + 1 < b.code.size by omega]
    · simp [BigEndian.encode, hsize, show start + 1 + 1 = start + 2 by omega]
    · rw [if_neg (by omega), List.getElem?_eq_none (by simpa using hi)]
  · rw [Array.getElem?_setIfInBounds_ne hlow.symm, Array.getElem?_setIfInBounds_ne hhigh.symm]

/-- A patch of one branch leaves the three bytes of another branch alone. -/
theorem Patched.branch_eq {distance other : Nat} (h : b.Patched start distance b')
    (hapart : other + 3 ≤ start ∨ start + 3 ≤ other) :
    (b'.code.toList.drop other).take 3 = (b.code.toList.drop other).take 3 := by
  refine List.ext_getElem? fun i => ?_
  rw [List.getElem?_take, List.getElem?_take]
  split_ifs with hi
  · have hsame := h.others (other + i) (by omega) (by omega)
    simpa [List.getElem?_drop] using hsame
  · rfl

end Body

/-! ### Bodies and their branches -/

/-- A body while it is written, with the pool that it refers to and the starts that were told of its
branches. -/
structure Sketch where
  /-- The constants. -/
  pool : ConstantPool
  /-- The body. -/
  body : Body := {}
  /-- Where the branches start, in the order in which they were written. -/
  branches : Array Nat := #[]

namespace Sketch

/-- What a directive makes of a body.  One that fails leaves the body as it is, but constants that
were interned before stay. -/
def after (s : Sketch) (d : Directive) : Sketch :=
  match Id.run (((d.run.run s.branches).run s.body).run s.pool) with
  | (.ok (((), branches), body), pool) => { pool, body, branches }
  | (.error _, pool) => { s with pool }

/-- What directives in a row make of a body. -/
def afterAll (s : Sketch) (ds : List Directive) : Sketch := ds.foldl after s

end Sketch

namespace Emission

variable {α β : Type} {p q : ConstantPool}

/-- No byte of the body is given up. -/
def Lengthens (act : Emission α) : Prop :=
  ∀ b p a b' q, Gives (act.run b) p (a, b') q → b.code.size ≤ b'.code.size

theorem Lengthens.bind {act : Emission α} {f : α → Emission β} (h : Lengthens act)
    (hf : ∀ a, Lengthens (f a)) : Lengthens (act >>= f) := by
  intro b p c b' q hrun
  rw [StateT.run_bind] at hrun
  obtain ⟨⟨a, m⟩, r, ha, hc⟩ := gives_bind.1 hrun
  exact Nat.le_trans (h b p a m r ha) (hf a m r c b' q hc)

theorem lengthens_interning (act : Interning α) : Lengthens (liftM act : Emission α) := by
  intro b p a b' q hrun
  obtain ⟨-, rfl⟩ := gives_liftM.1 hrun
  exact Nat.le_refl _

theorem lengthens_emit {f : Body → Body} (h : ∀ b, b.code.size ≤ (f b).code.size) :
    Lengthens (emit f) := by
  intro b p a b' q hrun
  obtain ⟨heq, -⟩ := gives_pure.1 hrun
  cases heq
  exact h b

theorem lengthens_op16 {opcode : UInt8} {operand : UInt16} {effect : Int} :
    Lengthens (op16 opcode operand effect) :=
  lengthens_emit fun b => by simp

theorem lengthens_patch (start : Nat) : Lengthens (patch start) := by
  intro b p a b' q hrun
  exact Nat.le_of_eq (Body.size_patch (gives_patch.1 hrun).1).symm

theorem size_raw (bytes : Bytes) (b : Body) :
    (bytes.foldl (fun b byte => b.op byte 0) b).code.size = b.code.size + bytes.length := by
  induction bytes generalizing b with
  | nil => rfl
  | cons byte bytes ih =>
    rw [List.foldl_cons, ih, Body.size_op, List.length_cons]
    omega

end Emission

/-! ### Directives -/

namespace Directive

open Emission

variable {p q : ConstantPool} {b b' : Body} {branches branches' : Array Nat}

/-- The body gets no shorter, and a start is noted just for three bytes that are new. -/
structure Notes (b : Body) (branches : Array Nat) (b' : Body) (branches' : Array Nat) : Prop where
  /-- No byte is given up. -/
  size : b.code.size ≤ b'.code.size
  /-- A start that is noted is that of a branch at the end of the body. -/
  branches : branches' = branches ∨
    branches' = branches.push b.code.size ∧ b'.code.size = b.code.size + 3

/-- A computation that notes no start. -/
theorem notes_of_lengthens {act : Emission Unit} (h : Lengthens act)
    (hrun : Gives (((liftM act : Drafting Unit).run branches).run b) p (((), branches'), b') q) :
    Notes b branches b' branches' := by
  have hbind : (liftM act : Drafting Unit).run branches =
      act >>= fun a => pure (a, branches) := rfl
  rw [hbind, StateT.run_bind] at hrun
  obtain ⟨⟨a, m⟩, r, ha, hpure⟩ := gives_bind.1 hrun
  obtain ⟨heq, -⟩ := gives_pure.1 hpure
  cases heq
  exact ⟨h b p a m r ha, .inl rfl⟩

/-- An instruction that fits what a descriptor denotes. -/
theorem notes_of_parse {descriptor : String} {f : ValueKind → Body → Body}
    (hf : ∀ kind b, b.code.size ≤ (f kind b).code.size)
    (hrun : Gives ((((do
      let kind ← ValueKind.parse descriptor
      emit (f kind)) : Drafting Unit).run branches).run b) p (((), branches'), b') q) :
    Notes b branches b' branches' := by
  cases hparse : ValueKind.parse descriptor with
  | error e =>
    rw [hparse] at hrun
    exact absurd hrun gives_throw
  | ok kind =>
    rw [hparse] at hrun
    exact notes_of_lengthens (lengthens_emit (hf kind)) hrun

/-- What a directive notes. -/
theorem notes_of_gives {d : Directive}
    (hrun : Gives ((d.run.run branches).run b) p (((), branches'), b') q) :
    Notes b branches b' branches' := by
  cases d with
  | this => exact notes_of_lengthens (lengthens_emit fun b => by simp [Body.this]) hrun
  | op => exact notes_of_lengthens (lengthens_emit fun b => by simp) hrun
  | op8 => exact notes_of_lengthens (lengthens_emit fun b => by simp) hrun
  | op16 => exact notes_of_lengthens lengthens_op16 hrun
  | raw => exact notes_of_lengthens (lengthens_emit fun b => by rw [size_raw]; omega) hrun
  | stack effect =>
    exact notes_of_lengthens (lengthens_emit (f := (·.stack effect)) fun _ => Nat.le_refl _) hrun
  | branch opcode effect =>
    have hbind : (Directive.run (.branch opcode effect)).run branches =
        Emission.branch opcode effect >>= fun start => pure ((), branches.push start) := rfl
    rw [hbind, StateT.run_bind] at hrun
    obtain ⟨⟨start, m⟩, r, hbranch, hpure⟩ := gives_bind.1 hrun
    obtain ⟨heq, -⟩ := gives_pure.1 hpure
    cases heq
    obtain ⟨rfl, rfl, -⟩ := gives_branch.1 hbranch
    have hsize : (b.branch opcode effect).code.size = b.code.size + 3 := Body.size_op16 ..
    exact ⟨hsize ▸ Nat.le_add_right _ _, .inr ⟨rfl, hsize⟩⟩
  | patch start => exact notes_of_lengthens (lengthens_patch start) hrun
  | patchLabel label =>
    cases hlabel : branches[label]? with
    | none =>
      simp only [Directive.run, StateT.run_bind, StateT.run_get, pure_bind, hlabel] at hrun
      exact absurd hrun gives_throw
    | some start =>
      simp only [Directive.run, StateT.run_bind, StateT.run_get, pure_bind, hlabel] at hrun
      exact notes_of_lengthens (lengthens_patch start) hrun
  | pushInt value =>
    exact notes_of_lengthens (fun b p a b' q h => ((short_pushInt value).code b p a b' q h).1) hrun
  | pushDefault =>
    exact notes_of_parse (fun kind b => by cases kind <;> simp [Body.pushDefault]) hrun
  | loadParameter =>
    exact notes_of_parse (fun kind b => by cases kind <;> simp [Body.loadParameter]) hrun
  | returnValue descriptor? =>
    cases descriptor? with
    | none => exact notes_of_lengthens (lengthens_emit fun b => by simp [Body.returnValue]) hrun
    | some =>
      exact notes_of_parse (fun kind b => by cases kind <;> simp [Body.returnValue]) hrun
  | fieldRef =>
    exact notes_of_lengthens ((lengthens_interning _).bind fun _ => lengthens_op16) hrun
  | methodRef =>
    exact notes_of_lengthens ((lengthens_interning _).bind fun _ => lengthens_op16) hrun
  | classRef =>
    exact notes_of_lengthens ((lengthens_interning _).bind fun _ => lengthens_op16) hrun
  | constant =>
    exact notes_of_lengthens ((lengthens_interning _).bind fun _ => lengthens_op16) hrun

end Directive

/-! ### Runs -/

namespace Sketch

variable {s : Sketch}

/-- The branches of a body lie inside of it, one behind the other. -/
structure IsLaidOut (s : Sketch) : Prop where
  /-- The three bytes of a branch have been written. -/
  inside : ∀ start ∈ s.branches, start + 3 ≤ s.body.position
  /-- A branch starts behind the bytes of those before it. -/
  apart : s.branches.toList.Pairwise fun start other => start + 3 ≤ other

/-- Patching is a directive that changes the body or nothing. -/
theorem after_patch (s : Sketch) (start : Nat) : s.after (.patch start) =
    match s.body.patch start with
    | .ok body => { s with body }
    | .error _ => s := by
  have hbind : (Directive.patch start).run.run s.branches =
      Emission.patch start >>= fun a => pure (a, s.branches) := rfl
  unfold after
  rw [hbind]
  cases hpatch : s.body.patch start with
  | error cause =>
    simp only [Emission.patch, StateT.run_bind, StateT.run_get, pure_bind, hpatch]
    rfl
  | ok body =>
    simp only [Emission.patch, StateT.run_bind, StateT.run_get, pure_bind, hpatch]
    rfl

/-- **A directive** leaves the branches where they are, and puts a new one behind all others. -/
theorem isLaidOut_after (h : s.IsLaidOut) (d : Directive) : (s.after d).IsLaidOut := by
  unfold after
  split
  · rename_i branches body pool hrun
    obtain ⟨hsize, hbranches⟩ := Directive.notes_of_gives hrun
    rcases hbranches with rfl | ⟨rfl, hnew⟩
    · exact ⟨fun start hstart => Nat.le_trans (h.inside start hstart) hsize, h.apart⟩
    · refine ⟨fun start hstart => ?_, ?_⟩
      · rcases Array.mem_push.1 hstart with hstart | rfl
        · exact Nat.le_trans (h.inside start hstart) hsize
        · exact Nat.le_of_eq hnew.symm
      · rw [Array.toList_push, List.pairwise_append]
        refine ⟨h.apart, List.pairwise_singleton _ _, fun start hstart other hother => ?_⟩
        rw [List.mem_singleton.1 hother]
        exact h.inside start (Array.mem_toList_iff.1 hstart)
  · exact ⟨h.inside, h.apart⟩

/-- Branches are laid out after any directives. -/
theorem isLaidOut_afterAll (h : s.IsLaidOut) (ds : List Directive) :
    (s.afterAll ds).IsLaidOut := by
  induction ds generalizing s with
  | nil => exact h
  | cons d ds ih => exact ih (isLaidOut_after h d)

theorem isLaidOut_empty (p : ConstantPool) : IsLaidOut { pool := p } :=
  ⟨nofun, .nil⟩

/-- Of two branches one lies behind the other. -/
theorem IsLaidOut.apart_of_ne (h : s.IsLaidOut) {start other : Nat} (hstart : start ∈ s.branches)
    (hother : other ∈ s.branches) (hne : other ≠ start) :
    other + 3 ≤ start ∨ start + 3 ≤ other := by
  have hpairwise : s.branches.toList.Pairwise fun a b => a + 3 ≤ b ∨ b + 3 ≤ a :=
    h.apart.imp .inl
  have : Std.Symm fun a b : Nat => a + 3 ≤ b ∨ b + 3 ≤ a := ⟨fun _ _ => Or.symm⟩
  exact hpairwise.forall (Array.mem_toList_iff.2 hother) (Array.mem_toList_iff.2 hstart) hne

/-- **Patching after any directives.**  It succeeds just when two more bytes stand behind the start
and the distance to the current position is at most 32767.  A branch always has these bytes, so for
it the distance decides; and any other start is taken on the same terms, whatever stands there.
When it succeeds, the two bytes behind the start hold the distance and nothing else is changed, no
other branch in particular; when it fails, nothing is changed at all.  A body in memory is never
longer than the farthest start, so that every start inside it is one of these. -/
theorem patches_iff (p : ConstantPool) (ds : List Directive) {start : Nat}
    (hinside : start < (Sketch.afterAll { pool := p } ds).body.position)
    (hstart : start ≤ Body.farthestStart) :
    let s := Sketch.afterAll { pool := p } ds
    let distance := s.body.position - start
    (start ∈ s.branches →
      ((∃ body, s.body.patch start = .ok body) ↔ distance ≤ 32767)) ∧
    (start ∉ s.branches →
      ((∃ body, s.body.patch start = .ok body) ↔
        start + 3 ≤ s.body.position ∧ distance ≤ 32767)) ∧
    (∀ body, s.body.patch start = .ok body →
      s.after (.patch start) = { s with body } ∧ s.body.Patched start distance body ∧
        (start ∈ s.branches → ∀ other ∈ s.branches, other ≠ start →
          (body.code.toList.drop other).take 3 = (s.body.code.toList.drop other).take 3)) ∧
    ∀ cause, s.body.patch start = .error cause → s.after (.patch start) = s := by
  intro s distance
  have hlaid : s.IsLaidOut := isLaidOut_afterAll (isLaidOut_empty p) ds
  have hiff : (∃ body, s.body.patch start = .ok body) ↔
      start + 3 ≤ s.body.position ∧ distance ≤ 32767 := Body.exists_patch_iff hinside hstart
  refine ⟨fun hbranch => ?_, fun _ => hiff, fun body hbody => ?_, fun cause hcause => ?_⟩
  · rw [hiff]
    exact and_iff_right (hlaid.inside start hbranch)
  · have hpatched := Body.patched_of_patch hstart hbody
    refine ⟨?_, hpatched, fun hbranch other hother hne => ?_⟩
    · rw [after_patch, hbody]
    · exact hpatched.branch_eq (hlaid.apart_of_ne hbranch hother hne)
  · rw [after_patch, hcause]

/-- An instruction on a static field is no branch, and its operand is overwritten by a distance. -/
theorem patches_iff_getStatic :
    let s := Sketch.afterAll { pool := .empty } [.op16 0xb2 7 1, .op 0xb1 0]
    0 < s.body.position ∧ 0 ≤ Body.farthestStart ∧ 0 ∉ s.branches ∧
      s.body.code = #[0xb2, 0, 7, 0xb1] ∧
      ∃ body, s.body.patch 0 = .ok body ∧ s.after (.patch 0) = { s with body } ∧
        body.code = #[0xb2, 0, 4, 0xb1] := by
  intro s
  have hinside : 0 < s.body.position := by decide
  have hnone : 0 ∉ s.branches := by
    have hbranches : s.branches = #[] := rfl
    simp [hbranches]
  have hpatch : s.body.patch 0 = .ok { s.body with code := #[0xb2, 0, 4, 0xb1] } := by
    decide +kernel
  obtain ⟨-, -, hdone, -⟩ := patches_iff .empty [.op16 0xb2 7 1, .op 0xb1 0] hinside
    (Nat.zero_le _)
  exact ⟨hinside, Nat.zero_le _, hnone, rfl, _, hpatch, (hdone _ hpatch).1, rfl⟩

end Sketch

end ClassWeave
