import ClassWeave.Error
import Mathlib.Data.List.Forall2

/-!
# Successful computations

A computation in several steps succeeds just when every step does, with the values in between.
-/

namespace ClassWeave

variable {ε α β : Type}

theorem except_bind_eq_ok {e : Except ε α} {f : α → Except ε β} {b : β} :
    e >>= f = .ok b ↔ ∃ a, e = .ok a ∧ f a = .ok b := by
  cases e <;> simp [bind, Except.bind]

theorem except_bind_eq_error {e : Except ε α} {f : α → Except ε β} {cause : ε} :
    e >>= f = .error cause ↔ e = .error cause ∨ ∃ a, e = .ok a ∧ f a = .error cause := by
  cases e <;> simp [bind, Except.bind]

theorem except_ok_injective : Function.Injective (Except.ok : α → Except ε α) :=
  fun _ _ => Except.ok.inj

theorem except_map_eq_ok {e : Except ε α} {f : α → β} {b : β} :
    f <$> e = .ok b ↔ ∃ a, e = .ok a ∧ b = f a := by
  cases e <;> simp [Functor.map, Except.map, eq_comm]

theorem except_map_eq_error {e : Except ε α} {f : α → β} {cause : ε} :
    f <$> e = .error cause ↔ e = .error cause := by
  cases e <;> simp [Functor.map, Except.map]

theorem except_map_some_eq_ok {e : Except ε (Option α)} {f : α → β} {b : β} :
    Option.map f <$> e = .ok (some b) ↔ ∃ a, e = .ok (some a) ∧ f a = b := by
  rw [except_map_eq_ok]
  constructor
  · rintro ⟨a?, ha, hb⟩
    obtain ⟨a, rfl, hab⟩ := Option.map_eq_some_iff.1 hb.symm
    exact ⟨a, ha, hab⟩
  · rintro ⟨a, ha, rfl⟩
    exact ⟨some a, ha, rfl⟩

theorem except_pure_eq_ok {a b : α} : (pure a : Except ε α) = .ok b ↔ b = a := by
  simp [pure, Except.pure, eq_comm]

theorem except_throw_ne_ok {e : ε} {a : α} : ¬ (throw e : Except ε α) = .ok a := by
  simp [throw, throwThe, MonadExceptOf.throw]

theorem except_pure_ne_error {a : α} {e : ε} : (pure a : Except ε α) ≠ .error e := by
  simp [pure, Except.pure]

/-- A check that fails ends a computation. -/
theorem except_guard_eq_ok {c : Prop} [Decidable c] {e : ε} {f : β → Except ε α}
    {k : Except ε α} {a : α} :
    (if c then (throw e : Except ε β) >>= f else k) = .ok a ↔ ¬ c ∧ k = .ok a := by
  split_ifs with h
  · exact ⟨nofun, fun hnot => absurd h hnot.1⟩
  · exact ⟨fun hk => ⟨h, hk⟩, And.right⟩

theorem except_forM_eq_ok {check : α → Except ε Unit} {as : List α} {r : Unit} :
    as.forM check = .ok r ↔ ∀ a ∈ as, check a = .ok () := by
  induction as with
  | nil => simp [pure, Except.pure]
  | cons a as ih =>
    rw [List.forM, except_bind_eq_ok, List.forall_mem_cons, ← ih]
    constructor
    · rintro ⟨_, ha, has⟩
      exact ⟨ha, has⟩
    · rintro ⟨ha, has⟩
      exact ⟨(), ha, has⟩

theorem except_mapM_eq_ok {f : α → Except ε β} {as : List α} {bs : List β} :
    as.mapM f = .ok bs ↔ List.Forall₂ (fun a b => f a = .ok b) as bs := by
  induction as generalizing bs with
  | nil =>
    rw [List.mapM_nil, except_pure_eq_ok, List.forall₂_nil_left_iff]
  | cons a as ih =>
    rw [List.mapM_cons, List.forall₂_cons_left_iff]
    simp only [except_bind_eq_ok, except_pure_eq_ok, ih]
    constructor
    · rintro ⟨b, hb, bs, hbs, rfl⟩
      exact ⟨b, bs, hb, hbs, rfl⟩
    · rintro ⟨b, bs, hb, hbs, rfl⟩
      exact ⟨b, hb, bs, hbs, rfl⟩

theorem exists_of_mem_right {R : α → β → Prop} {as : List α} {bs : List β}
    (h : List.Forall₂ R as bs) {b : β} (hb : b ∈ bs) : ∃ a ∈ as, R a b := by
  induction h with
  | nil => cases hb
  | cons hab _ ih =>
    rcases List.mem_cons.1 hb with rfl | hb
    · exact ⟨_, List.mem_cons_self, hab⟩
    · obtain ⟨a, ha, hab⟩ := ih hb
      exact ⟨a, List.mem_cons_of_mem _ ha, hab⟩

theorem exists_of_mem_left {R : α → β → Prop} {as : List α} {bs : List β}
    (h : List.Forall₂ R as bs) {a : α} (ha : a ∈ as) : ∃ b ∈ bs, R a b :=
  exists_of_mem_right (List.Forall₂.flip h) ha

theorem forall₂_trans {γ : Type} {R : α → β → Prop} {S : β → γ → Prop} {T : α → γ → Prop}
    (htrans : ∀ a b c, R a b → S b c → T a c) {as : List α} {bs : List β} {cs : List γ}
    (h : List.Forall₂ R as bs) (h' : List.Forall₂ S bs cs) : List.Forall₂ T as cs := by
  induction h generalizing cs with
  | nil =>
    cases h'
    exact .nil
  | cons hab _ ih =>
    obtain ⟨c, cs, hbc, hcs, rfl⟩ := List.forall₂_cons_left_iff.1 h'
    exact .cons (htrans _ _ _ hab hbc) (ih hcs)

/-- Two lists that are related item by item, and what their items are made into together. -/
theorem forall₂_zipWith {γ : Type} {R : α → β → Prop} (f : α → β → γ) {as : List α} {bs : List β}
    (h : List.Forall₂ R as bs) :
    List.Forall₂ (fun a c => ∃ b, R a b ∧ c = f a b) as (List.zipWith f as bs) := by
  induction h with
  | nil => exact .nil
  | cons hab _ ih => exact .cons ⟨_, hab, rfl⟩ ih

theorem exists_mapM_eq_ok {f : α → Except ε β} {as : List α} :
    (∃ bs, as.mapM f = .ok bs) ↔ ∀ a ∈ as, ∃ b, f a = .ok b := by
  induction as with
  | nil => simp [pure, Except.pure]
  | cons a as ih =>
    rw [List.forall_mem_cons, ← ih]
    simp only [List.mapM_cons, except_bind_eq_ok, except_pure_eq_ok]
    constructor
    · rintro ⟨_, b, hb, bs, hbs, -⟩
      exact ⟨⟨b, hb⟩, bs, hbs⟩
    · rintro ⟨⟨b, hb⟩, bs, hbs⟩
      exact ⟨_, b, hb, bs, hbs, rfl⟩

theorem except_mapM_congr {f g : α → Except ε β} {as : List α}
    (h : ∀ a ∈ as, f a = g a) : as.mapM f = as.mapM g := by
  induction as with
  | nil => rfl
  | cons a as ih =>
    rw [List.forall_mem_cons] at h
    rw [List.mapM_cons, List.mapM_cons, h.1, ih h.2]

/-- A list of results fails with one of them. -/
theorem exists_of_mapM_eq_error {f : α → Except ε β} {as : List α} {cause : ε}
    (h : as.mapM f = .error cause) : ∃ a ∈ as, f a = .error cause := by
  induction as with
  | nil => cases h
  | cons a as ih =>
    rw [List.mapM_cons] at h
    rcases except_bind_eq_error.1 h with ha | ⟨b, -, h⟩
    · exact ⟨a, List.mem_cons_self, ha⟩
    rcases except_bind_eq_error.1 h with has | ⟨bs, -, h⟩
    · obtain ⟨a', ha', hfail⟩ := ih has
      exact ⟨a', List.mem_cons_of_mem a ha', hfail⟩
    · exact absurd h except_pure_ne_error

/-- Values in place of others that give the same results give the same list of results. -/
theorem except_mapM_of_forall₂ {f g : α → Except ε β} {as as' : List α} {bs : List β}
    (h : List.Forall₂ (fun a a' => ∀ b, f a = .ok b → g a' = .ok b) as as')
    (hf : as.mapM f = .ok bs) : as'.mapM g = .ok bs := by
  rw [except_mapM_eq_ok] at hf ⊢
  induction h generalizing bs with
  | nil =>
    cases hf
    exact .nil
  | cons ha _ ih =>
    obtain ⟨b, bs, hb, hbs, rfl⟩ := List.forall₂_cons_left_iff.1 hf
    exact .cons (ha b hb) (ih hbs)

/-- Whether a test lets a value through. -/
def passes (test : α → Except ε Bool) (a : α) : Bool :=
  match test a with
  | .ok keep => keep
  | .error _ => false

theorem filterAuxM_eq_ok {test : α → Except ε Bool} {as front bs : List α}
    (h : as.filterAuxM test front = .ok bs) :
    (∀ a ∈ as, test a = .ok (passes test a)) ∧ bs = (as.filter (passes test)).reverse ++ front := by
  induction as generalizing front with
  | nil => exact ⟨by simp, except_pure_eq_ok.1 h⟩
  | cons a as ih =>
    obtain ⟨keep, hkeep, h⟩ := except_bind_eq_ok.1 h
    have hpasses : passes test a = keep := by simp only [passes, hkeep]
    obtain ⟨htest, rfl⟩ := ih h
    refine ⟨List.forall_mem_cons.2 ⟨hpasses ▸ hkeep, htest⟩, ?_⟩
    cases keep <;> simp [hpasses]

/-- A filter keeps what passes the test, which has to succeed everywhere. -/
theorem except_filterM_eq_ok {test : α → Except ε Bool} {as bs : List α}
    (h : as.filterM test = .ok bs) :
    (∀ a ∈ as, test a = .ok (passes test a)) ∧ bs = as.filter (passes test) := by
  obtain ⟨bs', hbs', h⟩ := except_bind_eq_ok.1 h
  obtain rfl := except_pure_eq_ok.1 h
  obtain ⟨htest, rfl⟩ := filterAuxM_eq_ok hbs'
  exact ⟨htest, by simp⟩

theorem exists_of_filterAuxM_eq_error {test : α → Except ε Bool} {as front : List α} {cause : ε}
    (h : as.filterAuxM test front = .error cause) : ∃ a ∈ as, test a = .error cause := by
  induction as generalizing front with
  | nil => cases h
  | cons a as ih =>
    rcases except_bind_eq_error.1 h with ha | ⟨keep, -, h⟩
    · exact ⟨a, List.mem_cons_self, ha⟩
    · obtain ⟨a', ha', hfail⟩ := ih h
      exact ⟨a', List.mem_cons_of_mem a ha', hfail⟩

/-- A filter fails with one of its tests. -/
theorem exists_of_filterM_eq_error {test : α → Except ε Bool} {as : List α} {cause : ε}
    (h : as.filterM test = .error cause) : ∃ a ∈ as, test a = .error cause := by
  rcases except_bind_eq_error.1 h with h | ⟨bs, -, h⟩
  · exact exists_of_filterAuxM_eq_error h
  · exact absurd h except_pure_ne_error

/-- What a filter lets through passes the test. -/
theorem test_of_filterM {test : α → Except ε Bool} {as bs : List α} (h : as.filterM test = .ok bs) :
    ∀ b ∈ bs, test b = .ok true := by
  obtain ⟨htest, rfl⟩ := except_filterM_eq_ok h
  intro b hb
  obtain ⟨hmem, hpass⟩ := List.mem_filter.1 hb
  rw [htest b hmem, hpass]

theorem except_mapError_eq_ok {ε' : Type} {f : ε → ε'} {e : Except ε α} {a : α} :
    e.mapError f = .ok a ↔ e = .ok a := by
  cases e <;> simp [Except.mapError]

theorem except_liftM_eq_ok {α : Type} {e : Except Malformation α} {a : α} :
    (liftM e : Except Error α) = .ok a ↔ e = .ok a :=
  except_mapError_eq_ok

theorem except_liftM_eq_error {α : Type} {e : Except Malformation α} {cause : Error} :
    (liftM e : Except Error α) = .error cause ↔ ∃ m, e = .error m ∧ cause = .malformed m := by
  cases e <;> simp [liftM, monadLift, MonadLift.monadLift, Except.mapError, eq_comm]

end ClassWeave
