import ClassWeave.Instruction
import ClassWeave.Proofs.Bytes.Reading
import ClassWeave.Proofs.Except
import Mathlib.Logic.Relation

/-!
# Bodies as instructions in a row

A body that can be walked is a row of instructions, each of which claims just its own bytes.  Other
instructions can then be put in place of chosen ones without moving the rest.

* `Instruction.Claims` : what an instruction claims as its length.
* `Instruction.Row` : instructions in a row; every body that can be walked is one.
* `Instruction.Row.exists_replaced` : what becomes of a row when some of it is replaced.
* `Instruction.Retouched` : a body with other member instructions in place.
* `Instruction.exists_sites_replace` : replacing retouches a body, and its member instructions are
  then those that were not chosen and those that took the places of the others.
* `Instruction.siteAt`, `Instruction.Related` : the member instruction at an offset, and bodies
  whose member instructions are related one by one.
-/

namespace ClassWeave

namespace Instruction

variable {offset n k : Nat} {opcode : UInt8} {w w' code : Bytes} {row row' : List Bytes}

/-! ### Lengths -/

theorem forall_byte {P : UInt8 → Prop} (h : ∀ k < 256, P (UInt8.ofNat k)) (b : UInt8) : P b := by
  have hb := h b.toNat b.toNat_lt
  rwa [UInt8.ofNat_toNat] at hb

theorem fixedLength?_ne_zero : fixedLength? opcode ≠ some 0 :=
  forall_byte (P := fun b => fixedLength? b ≠ some 0) (by decide +kernel) opcode

theorem fixedLength?_of_isMemberOpcode :
    isMemberOpcode opcode = true → fixedLength? opcode = some 3 :=
  forall_byte (P := fun b => isMemberOpcode b = true → fixedLength? b = some 3)
    (by decide +kernel) opcode

/-- The instruction with this opcode in front of the bytes `w` claims to have this length. -/
inductive Claims (offset : Nat) (opcode : UInt8) (w : Bytes) : Nat → Prop
  /-- The opcode fixes the length. -/
  | fixed {n : Nat} : fixedLength? opcode = some n → Claims offset opcode w n
  /-- A switch has a word for every key between its bounds. -/
  | table {low high : Int} : opcode = Opcode.tableSwitch →
    wordAt w (padding offset + 4) = .ok low → wordAt w (padding offset + 8) = .ok high →
    low ≤ high → Claims offset opcode w (1 + padding offset + 12 + (high - low + 1).toNat * 4)
  /-- A switch has two words for each of its pairs. -/
  | lookup {pairs : Int} : opcode = Opcode.lookupSwitch →
    wordAt w (padding offset + 4) = .ok pairs → 0 ≤ pairs →
    Claims offset opcode w (1 + padding offset + 8 + pairs.toNat * 8)
  /-- A widened instruction has three bytes more, and an increment five. -/
  | wide {widened : UInt8} {rest : Bytes} : opcode = Opcode.wide → w = widened :: rest →
    Claims offset opcode w (if widened = Opcode.iinc then 6 else 4)

theorem claimedLength_eq_ok :
    claimedLength offset (opcode :: w) = .ok n ↔ Claims offset opcode w n := by
  simp only [claimedLength]
  constructor
  · intro h
    cases hfixed : fixedLength? opcode with
    | some m =>
      simp only [hfixed] at h
      cases h
      exact .fixed hfixed
    | none =>
      simp only [hfixed] at h
      split_ifs at h with htable hlookup hwide
      · obtain ⟨low, hlow, h⟩ := except_bind_eq_ok.1 h
        obtain ⟨high, hhigh, h⟩ := except_bind_eq_ok.1 h
        split_ifs at h with horder
        · cases h
        obtain rfl := except_pure_eq_ok.1 h
        exact .table htable hlow hhigh (Int.not_lt.1 horder)
      · obtain ⟨pairs, hpairs, h⟩ := except_bind_eq_ok.1 h
        split_ifs at h with hnegative
        · cases h
        obtain rfl := except_pure_eq_ok.1 h
        exact .lookup hlookup hpairs (Int.not_lt.1 hnegative)
      · cases w with
        | nil => cases h
        | cons widened rest =>
          cases h
          exact .wide hwide rfl
  · rintro (hfixed | ⟨rfl, hlow, hhigh, horder⟩ | ⟨rfl, hpairs, hnonneg⟩ | ⟨rfl, rfl⟩)
    · simp only [hfixed]
    · have hnone : fixedLength? Opcode.tableSwitch = none := by decide
      simp only [hnone, hlow, hhigh]
      simp [bind, Except.bind, pure, Except.pure, Int.not_lt.2 horder]
    · have hnone : fixedLength? Opcode.lookupSwitch = none := by decide
      have hother : Opcode.lookupSwitch ≠ Opcode.tableSwitch := by decide
      simp only [hnone, hpairs]
      simp [bind, Except.bind, pure, Except.pure, hother, Int.not_lt.2 hnonneg]
    · rfl

theorem Claims.pos (h : Claims offset opcode w n) : 0 < n := by
  cases h with
  | fixed hfixed => exact Nat.pos_of_ne_zero fun hzero => fixedLength?_ne_zero (hzero ▸ hfixed)
  | table => omega
  | lookup => omega
  | wide => split <;> omega

theorem wordAt_of_take_eq (h : w.take k = w'.take k) {place : Nat} (hplace : place + 4 ≤ k) :
    wordAt w' place = wordAt w place := by
  have hcut (v : Bytes) : (v.drop place).take 4 = ((v.take k).drop place).take 4 := by
    rw [List.drop_take, List.take_take, Nat.min_eq_left (by omega)]
  unfold wordAt
  rw [hcut w, hcut w', h]

/-- What an instruction claims only hangs on the bytes that it claims. -/
theorem Claims.of_take_eq (h : Claims offset opcode w n) (hw : w.take (n - 1) = w'.take (n - 1)) :
    Claims offset opcode w' n := by
  cases h with
  | fixed hfixed => exact .fixed hfixed
  | table hopcode hlow hhigh horder =>
    exact .table hopcode ((wordAt_of_take_eq hw (by omega)).trans hlow)
      ((wordAt_of_take_eq hw (by omega)).trans hhigh) horder
  | lookup hopcode hpairs hnonneg =>
    exact .lookup hopcode ((wordAt_of_take_eq hw (by omega)).trans hpairs) hnonneg
  | @wide widened rest hopcode hcons =>
    subst hcons
    obtain ⟨m, hm⟩ : ∃ m, (if widened = Opcode.iinc then 6 else 4) - 1 = m + 1 := by
      split <;> exact ⟨_, rfl⟩
    rw [hm] at hw
    cases w' with
    | nil => cases hw
    | cons widened' rest' =>
      obtain rfl := (List.cons.inj hw).1
      exact .wide hopcode rfl

theorem length_eq_ok :
    length offset (opcode :: w) = .ok n ↔ Claims offset opcode w n ∧ n ≤ w.length + 1 := by
  rw [length, except_bind_eq_ok]
  constructor
  · rintro ⟨m, hm, h⟩
    have hclaims := claimedLength_eq_ok.1 hm
    split_ifs at h with hpast
    · cases h
    obtain rfl := except_pure_eq_ok.1 h
    have hpos := hclaims.pos
    rw [List.isEmpty_iff, List.drop_eq_nil_iff, List.length_cons] at hpast
    exact ⟨hclaims, by omega⟩
  · rintro ⟨hclaims, hle⟩
    have hpos := hclaims.pos
    refine ⟨n, claimedLength_eq_ok.2 hclaims, ?_⟩
    rw [if_neg]
    · rfl
    · rw [List.isEmpty_iff, List.drop_eq_nil_iff, List.length_cons]
      omega

/-! ### Rows -/

/-- Instructions in a row, the first of which starts at `offset`. -/
inductive Row : Nat → List Bytes → Prop
  /-- No instructions. -/
  | nil {offset : Nat} : Row offset []
  /-- An instruction that claims its own bytes, in front of others. -/
  | cons {offset : Nat} {opcode : UInt8} {w : Bytes} {row : List Bytes} :
    Claims offset opcode w (w.length + 1) → Row (offset + (w.length + 1)) row →
    Row offset ((opcode :: w) :: row)

/-- Where the instructions of a row start. -/
def starts : Nat → List Bytes → List Nat
  | _, [] => []
  | offset, chunk :: row => offset :: starts (offset + chunk.length) row

/-- The member instructions of a row. -/
def sitesIn : Nat → List Bytes → List Site
  | _, [] => []
  | offset, chunk :: row =>
    (memberSite? offset chunk).toList ++ sitesIn (offset + chunk.length) row

theorem offsetsFrom_append (w rest : Bytes) (offset : Nat) :
    offsetsFrom w.length offset (w ++ rest) = offsetsFrom 0 (offset + w.length) rest := by
  induction w generalizing offset with
  | nil => rfl
  | cons b w ih =>
    rw [List.length_cons, List.cons_append, offsetsFrom, ih, Nat.add_assoc, Nat.add_comm 1]

theorem memberSitesFrom_append (w rest : Bytes) (offset : Nat) :
    memberSitesFrom w.length offset (w ++ rest) = memberSitesFrom 0 (offset + w.length) rest := by
  induction w generalizing offset with
  | nil => rfl
  | cons b w ih =>
    rw [List.length_cons, List.cons_append, memberSitesFrom, ih, Nat.add_assoc, Nat.add_comm 1]

/-- The walk over a body goes on behind an instruction. -/
theorem offsetsFrom_drop {width : Nat} (h : lengthAt code offset = .ok width) (hpos : 0 < width) :
    offsetsFrom 0 offset (code.drop offset) =
      (offset :: ·) <$> offsetsFrom 0 (offset + width) (code.drop (offset + width)) := by
  unfold lengthAt at h
  cases hdrop : code.drop offset with
  | nil =>
    rw [hdrop] at h
    cases h
  | cons opcode w =>
    rw [hdrop] at h
    obtain ⟨-, hle⟩ := length_eq_ok.1 h
    have hlater : code.drop (offset + width) = w.drop (width - 1) := by
      rw [← List.drop_drop, hdrop, ← Nat.sub_add_cancel hpos, List.drop_succ_cons,
        Nat.add_sub_cancel]
    have hskip : offsetsFrom (width - 1) (offset + 1) w =
        offsetsFrom 0 (offset + width) (w.drop (width - 1)) := by
      have hsplit := offsetsFrom_append (w.take (width - 1)) (w.drop (width - 1)) (offset + 1)
      have htake : (w.take (width - 1)).length = width - 1 := by
        rw [List.length_take]
        omega
      have hend : offset + 1 + (width - 1) = offset + width := by omega
      rwa [List.take_append_drop, htake, hend] at hsplit
    rw [offsetsFrom, h, hlater, ← hskip]
    rfl

/-- In front of other bytes an instruction still has its own length. -/
theorem length_append (h : Claims offset opcode w (w.length + 1)) (rest : Bytes) :
    length offset (opcode :: (w ++ rest)) = .ok (w.length + 1) := by
  refine length_eq_ok.2 ⟨h.of_take_eq ?_, by simp⟩
  simp

theorem isMemberOpcode_of_memberSite? {s : Site} (h : memberSite? offset (opcode :: w) = some s) :
    isMemberOpcode opcode = true ∧ s.offset = offset ∧ s.opcode = opcode := by
  unfold memberSite? at h
  split at h
  · rename_i hcons
    obtain ⟨rfl, rfl⟩ := List.cons.inj hcons
    split_ifs at h with hmember
    cases h
    exact ⟨hmember, rfl, rfl⟩
  · cases h

theorem Claims.eq_of_fixedLength? {m : Nat} (h : Claims offset opcode w n)
    (hfixed : fixedLength? opcode = some m) : n = m := by
  cases h with
  | fixed hfixed' => exact Option.some.inj (hfixed'.symm.trans hfixed)
  | table hopcode | lookup hopcode | wide hopcode =>
    subst hopcode
    cases hfixed

/-- A member instruction has an operand of two bytes. -/
theorem Claims.operand (h : Claims offset opcode w (w.length + 1))
    (hmember : isMemberOpcode opcode = true) : ∃ high low, w = [high, low] :=
  List.length_eq_two.1
    (Nat.succ.inj (h.eq_of_fixedLength? (fixedLength?_of_isMemberOpcode hmember)))

/-- In front of other bytes a member instruction is still the same. -/
theorem memberSite?_append (h : Claims offset opcode w (w.length + 1)) (rest : Bytes) :
    memberSite? offset (opcode :: (w ++ rest)) = memberSite? offset (opcode :: w) := by
  by_cases hmember : isMemberOpcode opcode = true
  · obtain ⟨high, low, rfl⟩ := h.operand hmember
    rfl
  · have hnone (v : Bytes) : memberSite? offset (opcode :: v) = none := by
      cases hsite : memberSite? offset (opcode :: v) with
      | none => rfl
      | some s => exact absurd (isMemberOpcode_of_memberSite? hsite).1 hmember
    rw [hnone, hnone]

/-- In front of other bytes, a complete instruction stands as a whole. -/
theorem exists_whole (h : length offset (opcode :: code) = .ok n) : ∃ w later,
    code = w ++ later ∧ Claims offset opcode w (w.length + 1) := by
  obtain ⟨hclaims, hle⟩ := length_eq_ok.1 h
  have hpos := hclaims.pos
  have hcut : (code.take (n - 1)).length + 1 = n := by
    rw [List.length_take]
    omega
  refine ⟨code.take (n - 1), code.drop (n - 1), (List.take_append_drop _ _).symm, ?_⟩
  rw [hcut]
  exact hclaims.of_take_eq (by rw [List.take_take, Nat.min_self])

theorem offsetsFrom_cons (hclaims : Claims offset opcode w (w.length + 1)) (rest : Bytes) :
    offsetsFrom 0 offset ((opcode :: w) ++ rest) =
      (offset :: ·) <$> offsetsFrom 0 (offset + (w.length + 1)) rest := by
  rw [List.cons_append, offsetsFrom, length_append hclaims]
  have hskip := offsetsFrom_append w rest (offset + 1)
  rw [Nat.add_assoc, Nat.add_comm 1] at hskip
  rw [← hskip]
  rfl

/-- A body that can be walked is a row of instructions. -/
theorem row_of_offsetsFrom {offs : List Nat} (h : offsetsFrom 0 offset code = .ok offs) :
    ∃ row, Row offset row ∧ code = row.flatten := by
  induction hsize : code.length using Nat.strongRecOn generalizing offset code offs with
  | ind size ih =>
  cases code with
  | nil => exact ⟨[], .nil, rfl⟩
  | cons opcode rest =>
    obtain ⟨n, hn, -⟩ := except_bind_eq_ok.1 h
    obtain ⟨w, later, rfl, hclaims⟩ := exists_whole hn
    -- the walk goes on behind the instruction
    rw [← List.cons_append, offsetsFrom_cons hclaims] at h
    obtain ⟨offs', hlater, -⟩ := except_map_eq_ok.1 h
    have hshorter : later.length < size := by
      rw [← hsize, List.length_cons, List.length_append]
      omega
    obtain ⟨row, hrow, rfl⟩ := ih _ hshorter hlater rfl
    exact ⟨(opcode :: w) :: row, .cons hclaims hrow, rfl⟩

/-- Looking for member instructions fails just where the walk over the body does. -/
theorem memberSitesFrom_eq_error {skip : Nat} {cause : Malformation} :
    memberSitesFrom skip offset code = .error cause ↔
      offsetsFrom skip offset code = .error cause := by
  fun_induction memberSitesFrom skip offset code with
  | case1 => simp [offsetsFrom]
  | case2 offset b rest ih =>
    simp only [offsetsFrom, except_bind_eq_error, except_pure_ne_error, and_false, exists_false,
      or_false, ih]
  | case3 offset skip b rest ih => exact ih

/-- Looking for member instructions walks the body. -/
theorem exists_offsetsFrom {skip : Nat} {sites : List Site}
    (h : memberSitesFrom skip offset code = .ok sites) :
    ∃ offs, offsetsFrom skip offset code = .ok offs := by
  cases hoffs : offsetsFrom skip offset code with
  | ok offs => exact ⟨offs, rfl⟩
  | error cause =>
    rw [memberSitesFrom_eq_error.2 hoffs] at h
    cases h

theorem row_of_memberSitesFrom {sites : List Site}
    (h : memberSitesFrom 0 offset code = .ok sites) :
    ∃ row, Row offset row ∧ code = row.flatten := by
  obtain ⟨offs, hoffs⟩ := exists_offsetsFrom h
  exact row_of_offsetsFrom hoffs

theorem Row.offsetsFrom (h : Row offset row) :
    offsetsFrom 0 offset row.flatten = .ok (starts offset row) := by
  induction h with
  | nil => rfl
  | cons hclaims _ ih =>
    rw [List.flatten_cons, offsetsFrom_cons hclaims, ih]
    rfl

theorem Row.memberSitesFrom (h : Row offset row) :
    memberSitesFrom 0 offset row.flatten = .ok (sitesIn offset row) := by
  induction h with
  | nil => rfl
  | @cons offset opcode w row hclaims _ ih =>
    rw [List.flatten_cons, List.cons_append, Instruction.memberSitesFrom, length_append hclaims,
      memberSite?_append hclaims]
    refine except_bind_eq_ok.2 ⟨_, rfl,
      except_bind_eq_ok.2 ⟨sitesIn (offset + (w.length + 1)) row, ?_, rfl⟩⟩
    rw [Nat.add_sub_cancel, memberSitesFrom_append, ← ih, Nat.add_assoc, Nat.add_comm 1]

theorem Row.append {row' : List Bytes} (h : Row offset row)
    (h' : Row (offset + row.flatten.length) row') : Row offset (row ++ row') := by
  induction h with
  | nil => exact h'
  | cons hclaims _ ih =>
    rw [List.flatten_cons, List.length_append, ← Nat.add_assoc] at h'
    exact .cons hclaims (ih h')

theorem le_of_mem_sitesIn {s : Site} (h : s ∈ sitesIn offset row) : offset ≤ s.offset := by
  induction row generalizing offset with
  | nil => cases h
  | cons chunk row ih =>
    rcases List.mem_append.1 h with h | h
    · cases chunk with
      | nil => cases h
      | cons opcode w =>
        exact Nat.le_of_eq (isMemberOpcode_of_memberSite? (Option.mem_toList.1 h)).2.1.symm
    · exact Nat.le_trans (Nat.le_add_right _ _) (ih h)

/-! ### Replacing -/

/-- The opcodes of the instructions that may be replaced, and of those that take their places. -/
def swapped : List UInt8 := [Opcode.getField, Opcode.putField, Opcode.invokeSpecial]

theorem isMemberOpcode_of_mem_swapped (h : opcode ∈ swapped) : isMemberOpcode opcode = true := by
  simp only [swapped, List.mem_cons, List.not_mem_nil, or_false] at h
  rcases h with rfl | rfl | rfl <;> decide

/-- The second instruction may take the place of the first. -/
structure Swap (s s' : Site) : Prop where
  /-- It starts at the same place. -/
  offset : s'.offset = s.offset
  /-- The first may be replaced. -/
  before : s.opcode ∈ swapped
  /-- The second may replace others. -/
  after : s'.opcode ∈ swapped

/-- The second run of bytes is the first, or a member instruction in exchange for it. -/
def Exchange (chunk chunk' : Bytes) : Prop :=
  chunk' = chunk ∨ ∃ opcode ∈ swapped, ∃ opcode' ∈ swapped, ∃ w w' : Bytes,
    w.length = 2 ∧ w'.length = 2 ∧ chunk = opcode :: w ∧ chunk' = opcode' :: w'

theorem replaceFrom_nil (offset : Nat) (code : Bytes) : replaceFrom offset [] code = code := by
  cases code <;> rfl

theorem replaceFrom_cons_of_lt {s : Site} {sites : List Site} {b : UInt8} {rest : Bytes}
    (h : offset < s.offset) : replaceFrom offset (s :: sites) (b :: rest) =
      b :: replaceFrom (offset + 1) (s :: sites) rest := by
  conv_lhs => unfold replaceFrom
  exact if_pos h

/-- Bytes in front of all sites stay as they are. -/
theorem replaceFrom_append {sites : List Site} (w rest : Bytes) (offset : Nat)
    (h : ∀ s ∈ sites, offset + w.length ≤ s.offset) :
    replaceFrom offset sites (w ++ rest) = w ++ replaceFrom (offset + w.length) sites rest := by
  cases sites with
  | nil => rw [replaceFrom_nil, replaceFrom_nil]
  | cons s sites =>
    have hs := h s List.mem_cons_self
    clear h
    induction w generalizing offset with
    | nil => rfl
    | cons b w ih =>
      rw [List.length_cons] at hs ⊢
      rw [List.cons_append, replaceFrom_cons_of_lt (by omega), ih _ (by omega), List.cons_append,
        Nat.add_assoc, Nat.add_comm 1]

/-- The instruction of the first site takes its place. -/
theorem replaceFrom_here {s : Site} {sites : List Site} {first second third : UInt8} {rest : Bytes}
    (h : s.offset = offset) : replaceFrom offset (s :: sites) (first :: second :: third :: rest) =
      (s.opcode :: bytes16 s.operand) ++ replaceFrom (offset + 3) sites rest := by
  have hlt : ¬ offset < s.offset := by omega
  conv_lhs => unfold replaceFrom
  exact if_neg hlt

theorem length_replaceFrom (offset : Nat) (sites : List Site) (code : Bytes) :
    (replaceFrom offset sites code).length = code.length := by
  fun_induction replaceFrom offset sites code with
  | case1 => rfl
  | case2 => rfl
  | case3 offset s sites b rest _ ih => rw [List.length_cons, ih, List.length_cons]
  | case4 offset s sites b _ first second rest ih =>
    rw [List.length_cons, List.length_append, ih, length_bytes16, List.length_cons,
      List.length_cons, List.length_cons]
    omega
  | case5 => rfl

theorem memberSite?_of_bytes16 (s : Site) (h : isMemberOpcode s.opcode = true) :
    memberSite? s.offset (s.opcode :: bytes16 s.operand) = some s := by
  have hoperand := ofNat_decode_bytes16 s.operand
  obtain ⟨high, low, hbytes⟩ : ∃ high low, bytes16 s.operand = [high, low] := ⟨_, _, rfl⟩
  rw [hbytes] at hoperand ⊢
  simp [memberSite?, h, hoperand]

theorem Claims.of_isMemberOpcode (h : isMemberOpcode opcode = true) : Claims offset opcode w 3 :=
  .fixed (fixedLength?_of_isMemberOpcode h)

/-- A member instruction stays if it was not chosen; the second one is put in place of the first if
it was. -/
def Follows (chosen done : List Site) (s s' : Site) : Prop :=
  s' = s ∧ s ∉ chosen ∨ (s, s') ∈ chosen.zip done

/-- The second row has the instructions of `done` in place of those of `chosen`, which are among
those of the first. -/
structure Replaced (offset : Nat) (chosen done : List Site) (row row' : List Bytes) : Prop where
  /-- It is a row again. -/
  isRow : Row offset row'
  /-- It has the bytes that replacing leads to. -/
  bytes : replaceFrom offset done row.flatten = row'.flatten
  /-- Every instruction stays or is replaced by one of the same length. -/
  chunks : List.Forall₂ Exchange row row'
  /-- Every member instruction has one in its place. -/
  sites : List.Forall₂ (Follows chosen done) (sitesIn offset row) (sitesIn offset row')

/-- An instruction in front that stays. -/
theorem Replaced.keep {chosen done : List Site} (hclaims : Claims offset opcode w (w.length + 1))
    (hchosen : chosen.Sublist (sitesIn (offset + (w.length + 1)) row))
    (hdone : List.Forall₂ Swap chosen done)
    (h : Replaced (offset + (w.length + 1)) chosen done row row') :
    Replaced offset chosen done ((opcode :: w) :: row) ((opcode :: w) :: row') := by
  have hfar : ∀ d ∈ done, offset + (opcode :: w).length ≤ d.offset := by
    intro d hd
    obtain ⟨s, hs, hswap⟩ := exists_of_mem_right hdone hd
    exact hswap.offset ▸ le_of_mem_sitesIn (hchosen.subset hs)
  refine ⟨.cons hclaims h.isRow, ?_, .cons (.inl rfl) h.chunks, ?_⟩
  · rw [List.flatten_cons, replaceFrom_append _ _ _ hfar, List.flatten_cons, List.length_cons,
      h.bytes]
  · refine List.rel_append (List.forall₂_same.2 fun s hs => .inl ⟨rfl, fun hmem => ?_⟩) h.sites
    have hhere := (isMemberOpcode_of_memberSite? (Option.mem_toList.1 hs)).2.1
    have hthere := le_of_mem_sitesIn (hchosen.subset hmem)
    omega

/-- A member instruction in front that is replaced. -/
theorem Replaced.swap {chosen done : List Site} {s d : Site} {high low : UInt8}
    (hsite : memberSite? offset (opcode :: [high, low]) = some s) (hswap : Swap s d)
    (h : Replaced (offset + 3) chosen done row row') : Replaced offset (s :: chosen) (d :: done)
      ((opcode :: [high, low]) :: row) ((d.opcode :: bytes16 d.operand) :: row') := by
  obtain ⟨-, hoffset, hopcode⟩ := isMemberOpcode_of_memberSite? hsite
  have hd : d.offset = offset := hswap.offset.trans hoffset
  have hmember := isMemberOpcode_of_mem_swapped hswap.after
  have hlength : (bytes16 d.operand).length = 2 := length_bytes16 _
  refine ⟨.cons ?_ ?_, ?_, .cons (.inr ?_) h.chunks, ?_⟩
  · rw [hlength]
    exact .of_isMemberOpcode hmember
  · rw [hlength]
    exact h.isRow
  · rw [List.flatten_cons, List.flatten_cons, ← h.bytes]
    exact replaceFrom_here hd
  · exact ⟨opcode, hopcode ▸ hswap.before, d.opcode, hswap.after, _, _, rfl, hlength, rfl, rfl⟩
  · have hlater : List.Forall₂ (Follows (s :: chosen) (d :: done)) (sitesIn (offset + 3) row)
        (sitesIn (offset + 3) row') := by
      refine List.forall₂_iff_zip.2 ⟨h.sites.length_eq, fun {t t'} hzip => ?_⟩
      rcases List.forall₂_zip h.sites hzip with ⟨heq, hnot⟩ | hdone
      · refine .inl ⟨heq, fun hmem => ?_⟩
        rcases List.mem_cons.1 hmem with rfl | hmem
        · have hthere : offset + 3 ≤ t.offset := le_of_mem_sitesIn (List.of_mem_zip hzip).1
          omega
        · exact hnot hmem
      · exact .inr (List.mem_cons_of_mem _ hdone)
    have hsite' := memberSite?_of_bytes16 d hmember
    rw [hd] at hsite'
    simp only [sitesIn, hsite, hsite', List.length_cons, hlength, List.length_nil]
    exact .cons (.inr List.mem_cons_self) hlater

/-- **Replacing chosen instructions of a row** gives a row with others in their places. -/
theorem Row.exists_replaced (hrow : Row offset row) {chosen done : List Site}
    (hchosen : chosen.Sublist (sitesIn offset row)) (hdone : List.Forall₂ Swap chosen done) :
    ∃ row', Replaced offset chosen done row row' := by
  induction hrow generalizing chosen done with
  | nil =>
    obtain rfl := List.sublist_nil.1 hchosen
    cases hdone
    exact ⟨[], .nil, rfl, .nil, .nil⟩
  | @cons offset opcode w row hclaims hrow ih =>
    have hkeep (hlater : chosen.Sublist (sitesIn (offset + (w.length + 1)) row)) :
        ∃ row', Replaced offset chosen done ((opcode :: w) :: row) row' := by
      obtain ⟨row', hrow'⟩ := ih hlater hdone
      exact ⟨_, hrow'.keep hclaims hlater hdone⟩
    unfold sitesIn at hchosen
    cases hsite : memberSite? offset (opcode :: w) with
    | none =>
      rw [hsite] at hchosen
      exact hkeep hchosen
    | some s =>
      rw [hsite] at hchosen
      rcases List.sublist_cons_iff.1 hchosen with hlater | ⟨chosen', rfl, hlater⟩
      · exact hkeep hlater
      · obtain ⟨d, done', hswap, hdone', rfl⟩ := List.forall₂_cons_left_iff.1 hdone
        obtain ⟨high, low, rfl⟩ := hclaims.operand (isMemberOpcode_of_memberSite? hsite).1
        obtain ⟨row', hrow'⟩ := ih hlater hdone'
        exact ⟨_, hrow'.swap hsite hswap⟩

/-! ### Retouched bodies -/

/-- The byte at a place is one of the opcodes that may be replaced. -/
def HoldsSwapped (code : Bytes) (k : Nat) : Prop := ∃ opcode ∈ swapped, code[k]? = some opcode

/-- The second body is the first with other member instructions in place. -/
structure Retouched (code code' : Bytes) : Prop where
  /-- It has the same length. -/
  length : code'.length = code.length
  /-- Its instructions start at the same offsets. -/
  offsets : offsets code' = offsets code
  /-- Where an instruction starts, the opcode stays, or one that may be replaced stands in place of
  another. -/
  opcodes : ∀ starts, Instruction.offsets code = .ok starts → ∀ k ∈ starts,
    code'[k]? = code[k]? ∨ HoldsSwapped code k ∧ HoldsSwapped code' k
  /-- They differ only in the three bytes from such an opcode on. -/
  windows : ∀ i, code'[i]? ≠ code[i]? → ∃ starts k, Instruction.offsets code = .ok starts ∧
    k ∈ starts ∧ k ≤ i ∧ i < k + 3 ∧ HoldsSwapped code k

theorem Retouched.refl (code : Bytes) : Retouched code code :=
  ⟨rfl, rfl, fun _ _ _ _ => .inl rfl, fun _ h => absurd rfl h⟩

theorem Retouched.trans {code code' code'' : Bytes} (h : Retouched code code')
    (h' : Retouched code' code'') : Retouched code code'' := by
  refine ⟨h'.length.trans h.length, h'.offsets.trans h.offsets, fun starts hstarts k hk => ?_,
    fun i hi => ?_⟩
  · rcases h.opcodes starts hstarts k hk with heq | ⟨hbefore, hafter⟩
    · rcases h'.opcodes starts (h.offsets.trans hstarts) k hk with heq' | ⟨hbefore, hafter⟩
      · exact .inl (heq'.trans heq)
      · refine .inr ⟨?_, hafter⟩
        rwa [HoldsSwapped, heq] at hbefore
    · rcases h'.opcodes starts (h.offsets.trans hstarts) k hk with heq' | ⟨-, hafter'⟩
      · refine .inr ⟨hbefore, ?_⟩
        rwa [HoldsSwapped, heq']
      · exact .inr ⟨hbefore, hafter'⟩
  · by_cases heq : code''[i]? = code'[i]?
    · exact h.windows i (heq ▸ hi)
    · obtain ⟨starts, k, hstarts, hk, hle, hlt, hholds⟩ := h'.windows i heq
      rw [h.offsets] at hstarts
      refine ⟨starts, k, hstarts, hk, hle, hlt, ?_⟩
      rcases h.opcodes starts hstarts k hk with heq' | ⟨hbefore, -⟩
      · rwa [HoldsSwapped, heq'] at hholds
      · exact hbefore

/-! ### Retouched rows are retouched bodies -/

theorem length_of_exchange {chunk chunk' : Bytes} (h : Exchange chunk chunk') :
    chunk'.length = chunk.length := by
  rcases h with rfl | ⟨_, -, _, -, w, w', hw, hw', rfl, rfl⟩
  · rfl
  · rw [List.length_cons, List.length_cons, hw, hw']

theorem starts_of_exchange (h : List.Forall₂ Exchange row row') :
    starts offset row' = starts offset row := by
  induction h generalizing offset with
  | nil => rfl
  | cons hchunk _ ih => rw [starts, starts, length_of_exchange hchunk, ih]

theorem length_flatten_of_exchange (h : List.Forall₂ Exchange row row') :
    row'.flatten.length = row.flatten.length := by
  induction h with
  | nil => rfl
  | cons hchunk _ ih =>
    rw [List.flatten_cons, List.flatten_cons, List.length_append, List.length_append,
      length_of_exchange hchunk, ih]

theorem le_of_mem_starts {k : Nat} (h : k ∈ starts offset row) : offset ≤ k := by
  induction row generalizing offset with
  | nil => cases h
  | cons chunk row ih =>
    rcases List.mem_cons.1 h with rfl | h
    · exact Nat.le_refl _
    · exact Nat.le_trans (Nat.le_add_right _ _) (ih h)

theorem getElem?_flatten_add (chunk : Bytes) (row : List Bytes) (k : Nat) :
    (chunk :: row).flatten[chunk.length + k]? = row.flatten[k]? := by
  rw [List.flatten_cons, List.getElem?_append_right (Nat.le_add_right _ _), Nat.add_sub_cancel_left]

theorem Row.opcodes (hrow : Row offset row) (h : List.Forall₂ Exchange row row') (k : Nat)
    (hk : offset + k ∈ starts offset row) : row'.flatten[k]? = row.flatten[k]? ∨
      HoldsSwapped row.flatten k ∧ HoldsSwapped row'.flatten k := by
  induction hrow generalizing row' k with
  | nil => cases hk
  | @cons offset opcode w row _ _ ih =>
    obtain ⟨chunk', later', hchunk, hlater, rfl⟩ := List.forall₂_cons_left_iff.1 h
    rcases List.mem_cons.1 hk with hhere | hk
    · obtain rfl : k = 0 := by omega
      rcases hchunk with rfl | ⟨_, hbefore, opcode', hafter, _, w', -, -, hcons, rfl⟩
      · exact .inl rfl
      · obtain ⟨rfl, rfl⟩ := List.cons.inj hcons
        exact .inr ⟨⟨opcode, hbefore, rfl⟩, ⟨opcode', hafter, rfl⟩⟩
    · have hle := le_of_mem_starts hk
      obtain ⟨j, rfl⟩ := Nat.exists_eq_add_of_le (show (opcode :: w).length ≤ k by omega)
      have hlength := length_of_exchange hchunk
      have hget : (chunk' :: later').flatten[(opcode :: w).length + j]? = later'.flatten[j]? := by
        rw [← hlength, getElem?_flatten_add]
      have hholds := ih hlater j (by rwa [Nat.add_assoc])
      simpa only [HoldsSwapped, hget, getElem?_flatten_add] using hholds

theorem Row.windows (hrow : Row offset row) (h : List.Forall₂ Exchange row row') (i : Nat)
    (hi : row'.flatten[i]? ≠ row.flatten[i]?) : ∃ k, offset + k ∈ starts offset row ∧ k ≤ i ∧
      i < k + 3 ∧ HoldsSwapped row.flatten k := by
  induction hrow generalizing row' i with
  | nil =>
    cases h
    exact absurd rfl hi
  | @cons offset opcode w row _ _ ih =>
    obtain ⟨chunk', later', hchunk, hlater, rfl⟩ := List.forall₂_cons_left_iff.1 h
    have hlength := length_of_exchange hchunk
    by_cases hhere : i < (opcode :: w).length
    · rcases hchunk with rfl | ⟨_, hbefore, _, -, v, _, hv, -, hcons, -⟩
      · refine absurd ?_ hi
        rw [List.flatten_cons, List.flatten_cons, List.getElem?_append_left hhere,
          List.getElem?_append_left hhere]
      · obtain ⟨rfl, rfl⟩ := List.cons.inj hcons
        rw [List.length_cons, hv] at hhere
        exact ⟨0, List.mem_cons_self, Nat.zero_le i, by omega, opcode, hbefore, rfl⟩
    · obtain ⟨j, rfl⟩ := Nat.exists_eq_add_of_le (Nat.le_of_not_lt hhere)
      have hget : (chunk' :: later').flatten[(opcode :: w).length + j]? = later'.flatten[j]? := by
        rw [← hlength, getElem?_flatten_add]
      rw [hget, getElem?_flatten_add] at hi
      obtain ⟨k, hk, hle, hlt, hholds⟩ := ih hlater j hi
      refine ⟨(opcode :: w).length + k, ?_, by omega, by omega, ?_⟩
      · rw [← Nat.add_assoc]
        exact List.mem_cons_of_mem _ hk
      · rwa [HoldsSwapped, getElem?_flatten_add]

/-- **Replacing chosen member instructions of a body** leaves everything else alone. -/
theorem exists_sites_replace {sites chosen done : List Site} (h : memberSites code = .ok sites)
    (hchosen : chosen.Sublist sites) (hdone : List.Forall₂ Swap chosen done) :
    Retouched code (replace done code) ∧ ∃ sites', memberSites (replace done code) = .ok sites' ∧
      List.Forall₂ (Follows chosen done) sites sites' := by
  obtain ⟨row, hrow, rfl⟩ := row_of_memberSitesFrom h
  obtain rfl : sitesIn 0 row = sites := Except.ok.inj (hrow.memberSitesFrom.symm.trans h)
  obtain ⟨row', hreplaced⟩ := hrow.exists_replaced hchosen hdone
  have hbytes : replace done row.flatten = row'.flatten := hreplaced.bytes
  have hchunks := hreplaced.chunks
  have hoffsets : offsets row.flatten = .ok (starts 0 row) := hrow.offsetsFrom
  rw [hbytes]
  refine ⟨⟨length_flatten_of_exchange hchunks, ?_, fun offs hoffs k hk => ?_, fun i hi => ?_⟩,
    sitesIn 0 row', hreplaced.isRow.memberSitesFrom, hreplaced.sites⟩
  · rw [hoffsets, ← starts_of_exchange hchunks]
    exact hreplaced.isRow.offsetsFrom
  · obtain rfl := Except.ok.inj (hoffsets.symm.trans hoffs)
    exact hrow.opcodes hchunks k (by rwa [Nat.zero_add])
  · obtain ⟨k, hk, hle, hlt, hholds⟩ := hrow.windows hchunks i hi
    rw [Nat.zero_add] at hk
    exact ⟨_, k, hoffsets, hk, hle, hlt, hholds⟩

/-! ### Member instructions by offset -/

/-- The member instruction at an offset of a body. -/
def siteAt (code : Bytes) (k : Nat) : Option Site := memberSite? k (code.drop k)

theorem siteAt_eq_some {s : Site} (h : siteAt code k = some s) :
    s.offset = k ∧ code[k]? = some s.opcode := by
  unfold siteAt at h
  cases hcode : code.drop k with
  | nil =>
    rw [hcode] at h
    cases h
  | cons opcode w =>
    rw [hcode] at h
    obtain ⟨-, hoffset, hopcode⟩ := isMemberOpcode_of_memberSite? h
    have hget : (code.drop k)[0]? = some opcode := by rw [hcode, List.getElem?_cons_zero]
    rw [List.getElem?_drop, Nat.add_zero] at hget
    exact ⟨hoffset, hopcode ▸ hget⟩

theorem offset_of_siteAt {s : Site} (h : siteAt code k = some s) : s.offset = k :=
  (siteAt_eq_some h).1

theorem Row.sitesIn_eq (h : Row offset row) : sitesIn offset row =
    (starts offset row).filterMap fun k => memberSite? k (row.flatten.drop (k - offset)) := by
  induction h with
  | nil => rfl
  | @cons offset opcode w row hclaims _ ih =>
    have hhere : memberSite? offset ((opcode :: w) ++ row.flatten) =
        memberSite? offset (opcode :: w) := memberSite?_append hclaims row.flatten
    rw [sitesIn, starts, List.filterMap_cons, Nat.sub_self, List.drop_zero, List.flatten_cons,
      hhere, List.length_cons, ih]
    have hlater : (starts (offset + (w.length + 1)) row).filterMap
        (fun k => memberSite? k (row.flatten.drop (k - (offset + (w.length + 1))))) =
          (starts (offset + (w.length + 1)) row).filterMap
            (fun k => memberSite? k (((opcode :: w) ++ row.flatten).drop (k - offset))) := by
      refine List.filterMap_congr fun k hk => ?_
      have hle := le_of_mem_starts hk
      have hdrop : k - offset = (opcode :: w).length + (k - (offset + (w.length + 1))) := by
        rw [List.length_cons]
        omega
      rw [hdrop, List.drop_length_add_append]
    rw [hlater]
    cases memberSite? offset (opcode :: w) <;> rfl

/-- The member instructions of a body are those at the offsets where instructions start. -/
theorem offsets_of_memberSites {sites : List Site} (h : memberSites code = .ok sites) :
    ∃ starts, offsets code = .ok starts ∧ sites = starts.filterMap (siteAt code) := by
  obtain ⟨row, hrow, rfl⟩ := row_of_memberSitesFrom h
  obtain rfl : sitesIn 0 row = sites := Except.ok.inj (hrow.memberSitesFrom.symm.trans h)
  exact ⟨starts 0 row, hrow.offsetsFrom, hrow.sitesIn_eq⟩

theorem Row.exists_memberSite? (hrow : Row offset row) (hk : offset + k ∈ starts offset row)
    {b : UInt8} (hb : row.flatten[k]? = some b) (hmember : isMemberOpcode b = true) :
    ∃ s, memberSite? (offset + k) (row.flatten.drop k) = some s ∧ s.opcode = b := by
  induction hrow generalizing k with
  | nil => cases hk
  | @cons offset opcode w row hclaims _ ih =>
    rcases List.mem_cons.1 hk with hhere | hlater
    · obtain rfl : k = 0 := by omega
      obtain rfl : opcode = b := Option.some.inj hb
      obtain ⟨high, low, rfl⟩ := hclaims.operand hmember
      exact ⟨_, if_pos hmember, rfl⟩
    · have hle := le_of_mem_starts hlater
      obtain ⟨j, rfl⟩ : ∃ j, k = (opcode :: w).length + j :=
        Nat.exists_eq_add_of_le (by simp only [List.length_cons] at hle ⊢; omega)
      rw [getElem?_flatten_add] at hb
      rw [List.flatten_cons, List.drop_length_add_append, ← Nat.add_assoc]
      exact ih (by rwa [← Nat.add_assoc] at hlater) hb

/-- Where an instruction with such an opcode starts, there is a member instruction. -/
theorem exists_siteAt {offs : List Nat} (h : offsets code = .ok offs) (hk : k ∈ offs)
    (hopcode : code[k]? = some opcode) (hmember : isMemberOpcode opcode = true) :
    ∃ s, siteAt code k = some s ∧ s.opcode = opcode := by
  obtain ⟨row, hrow, rfl⟩ := row_of_offsetsFrom h
  obtain rfl : starts 0 row = offs := Except.ok.inj (hrow.offsetsFrom.symm.trans h)
  have hsite := hrow.exists_memberSite? (by rwa [Nat.zero_add]) hopcode hmember
  rwa [Nat.zero_add] at hsite

/-- The bodies have instructions at the same offsets, and their member instructions are related one
by one. -/
def Related (R : Site → Site → Prop) (code code' : Bytes) : Prop :=
  ∃ starts, offsets code = .ok starts ∧ offsets code' = .ok starts ∧
    ∀ k ∈ starts, Option.Rel R (siteAt code k) (siteAt code' k)

theorem rel_imp {α β : Type} {R S : α → β → Prop} {a? : Option α} {b? : Option β}
    (hRS : ∀ a b, R a b → S a b) (h : Option.Rel R a? b?) : Option.Rel S a? b? := by
  cases h with
  | some hrel => exact .some (hRS _ _ hrel)
  | none => exact .none

theorem rel_comp {α β γ : Type} {R : α → β → Prop} {S : β → γ → Prop} {a? : Option α}
    {b? : Option β} {c? : Option γ} (h : Option.Rel R a? b?) (h' : Option.Rel S b? c?) :
    Option.Rel (Relation.Comp R S) a? c? := by
  cases h with
  | some hrel =>
    cases h' with
    | some hrel' => exact .some ⟨_, hrel, hrel'⟩
  | none =>
    cases h'
    exact .none

theorem exists_of_rel_some_left {α β : Type} {R : α → β → Prop} {a : α} {b? : Option β}
    (h : Option.Rel R (some a) b?) : ∃ b, b? = some b ∧ R a b := by
  cases h with
  | some hrel => exact ⟨_, rfl, hrel⟩

theorem exists_of_rel_some_right {α β : Type} {R : α → β → Prop} {a? : Option α} {b : β}
    (h : Option.Rel R a? (some b)) : ∃ a, a? = some a ∧ R a b := by
  cases h with
  | some hrel => exact ⟨_, rfl, hrel⟩

variable {R S : Site → Site → Prop} {code' code'' : Bytes}

theorem Related.imp (hRS : ∀ s s', R s s' → S s s') (h : Related R code code') :
    Related S code code' := by
  obtain ⟨starts, hstarts, hstarts', hall⟩ := h
  exact ⟨starts, hstarts, hstarts', fun k hk => rel_imp hRS (hall k hk)⟩

theorem Related.comp (h : Related R code code') (h' : Related S code' code'') :
    Related (Relation.Comp R S) code code'' := by
  obtain ⟨starts, hstarts, hstarts', hall⟩ := h
  obtain ⟨_, hsame, hstarts'', hall'⟩ := h'
  obtain rfl := Except.ok.inj (hstarts'.symm.trans hsame)
  exact ⟨starts, hstarts, hstarts'', fun k hk => rel_comp (hall k hk) (hall' k hk)⟩

theorem related_of_forall₂ {sites sites' : List Site}
    (h : memberSites code = .ok sites) (h' : memberSites code' = .ok sites')
    (hoffsets : offsets code' = offsets code) (hR : ∀ s s', R s s' → s'.offset = s.offset)
    (hsites : List.Forall₂ R sites sites') : Related R code code' := by
  obtain ⟨starts, hstarts, rfl⟩ := offsets_of_memberSites h
  obtain ⟨starts', hstarts', rfl⟩ := offsets_of_memberSites h'
  obtain rfl : starts = starts' := Except.ok.inj ((hoffsets.trans hstarts).symm.trans hstarts')
  refine ⟨starts, hstarts, hstarts', fun k hk => ?_⟩
  cases hs : siteAt code k with
  | some s =>
    obtain ⟨s', hs', hrel⟩ := exists_of_mem_left hsites (List.mem_filterMap.2 ⟨k, hk, hs⟩)
    obtain ⟨k', -, hk'⟩ := List.mem_filterMap.1 hs'
    obtain rfl : k' = k := by
      rw [← offset_of_siteAt hk', hR s s' hrel, offset_of_siteAt hs]
    rw [hk']
    exact .some hrel
  | none =>
    cases hs' : siteAt code' k with
    | none => exact .none
    | some s' =>
      obtain ⟨s, hmem, hrel⟩ := exists_of_mem_right hsites (List.mem_filterMap.2 ⟨k, hk, hs'⟩)
      obtain ⟨k', -, hk'⟩ := List.mem_filterMap.1 hmem
      obtain rfl : k' = k := by
        rw [← offset_of_siteAt hk', ← hR s s' hrel, offset_of_siteAt hs']
      rw [hs] at hk'
      cases hk'

end Instruction

end ClassWeave
