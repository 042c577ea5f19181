import ClassWeave.Proofs.Except

/-!
# Computations with a state

A computation with a state that can fail gives a value and a next state when it succeeds.

* `Gives` : the successful runs.
* `gives_bind` : the successful runs of two computations in a row.
* `Fails`, `exists_gives`, `fails_bind` : the same for the runs that fail; what does not fail
  succeeds.
-/

namespace ClassWeave

variable {ε σ α β : Type} {s t : σ}

/-- Started in the state `s`, the computation succeeds with `a` and ends in the state `t`. -/
def Gives (act : ExceptT ε (StateM σ) α) (s : σ) (a : α) (t : σ) : Prop :=
  Id.run (act.run s) = (.ok a, t)

theorem run_bind (act : ExceptT ε (StateM σ) α) (f : α → ExceptT ε (StateM σ) β) (s : σ) :
    Id.run ((act >>= f).run s) =
      match Id.run (act.run s) with
      | (r, m) => Id.run (ExceptT.bindCont f r m) :=
  rfl

theorem gives_bind {act : ExceptT ε (StateM σ) α} {f : α → ExceptT ε (StateM σ) β} {b : β} :
    Gives (act >>= f) s b t ↔ ∃ a m, Gives act s a m ∧ Gives (f a) m b t := by
  unfold Gives
  rw [run_bind]
  rcases Id.run (act.run s) with ⟨_ | a, m⟩
  · constructor
    · intro h
      cases congrArg Prod.fst h
    · rintro ⟨a, m, ⟨⟩, -⟩
  · constructor
    · intro h
      exact ⟨a, m, rfl, h⟩
    · rintro ⟨a', m', heq, h⟩
      cases heq
      exact h

theorem gives_pure {a b : α} : Gives (pure a : ExceptT ε (StateM σ) α) s b t ↔ b = a ∧ t = s := by
  show ((.ok a, s) : Except ε α × σ) = (.ok b, t) ↔ _
  simp [eq_comm]

theorem gives_throw {e : ε} {a : α} : ¬ Gives (throw e : ExceptT ε (StateM σ) α) s a t := by
  show ¬ ((.error e, s) : Except ε α × σ) = (.ok a, t)
  simp

theorem gives_lift {e : Except ε α} {a : α} :
    Gives (liftM e : ExceptT ε (StateM σ) α) s a t ↔ e = .ok a ∧ t = s := by
  show ((e, s) : Except ε α × σ) = (.ok a, t) ↔ _
  simp [eq_comm]

theorem gives_get {r : σ} : Gives (get : ExceptT ε (StateM σ) σ) s r t ↔ r = s ∧ t = s := by
  show ((.ok s, s) : Except ε σ × σ) = (.ok r, t) ↔ _
  simp [eq_comm]

theorem gives_set {r : σ} {a : Unit} :
    Gives (set r : ExceptT ε (StateM σ) Unit) s a t ↔ t = r := by
  show ((.ok (), r) : Except ε Unit × σ) = (.ok a, t) ↔ _
  simp [eq_comm]

theorem gives_modify {f : σ → σ} {a : Unit} :
    Gives (modify f : ExceptT ε (StateM σ) Unit) s a t ↔ t = f s := by
  show ((.ok (), f s) : Except ε Unit × σ) = (.ok a, t) ↔ _
  simp [eq_comm]

/-! ### Failing runs -/

variable {cause : ε}

/-- Started in the state `s`, the computation fails. -/
def Fails (act : ExceptT ε (StateM σ) α) (s : σ) (cause : ε) : Prop :=
  (Id.run (act.run s)).1 = .error cause

theorem exists_gives {act : ExceptT ε (StateM σ) α} (h : ∀ cause, ¬ Fails act s cause) :
    ∃ a t, Gives act s a t := by
  generalize hrun : Id.run (act.run s) = result
  obtain ⟨cause | a, t⟩ := result
  · exact absurd (congrArg Prod.fst hrun) (h cause)
  · exact ⟨a, t, hrun⟩

/-- Of two computations in a row the first fails, or the second behind a first that succeeds. -/
theorem fails_bind {act : ExceptT ε (StateM σ) α} {f : α → ExceptT ε (StateM σ) β} :
    Fails (act >>= f) s cause ↔
      Fails act s cause ∨ ∃ a m, Gives act s a m ∧ Fails (f a) m cause := by
  unfold Fails Gives
  rw [run_bind]
  rcases Id.run (act.run s) with ⟨found | a, m⟩
  · constructor
    · intro h
      cases h
      exact .inl rfl
    · rintro (h | ⟨a, m, h, -⟩)
      · cases h
        rfl
      · cases h
  · constructor
    · exact fun h => .inr ⟨a, m, rfl, h⟩
    · rintro (h | ⟨a', m', heq, h⟩)
      · cases h
      · cases heq
        exact h

theorem not_fails_pure {a : α} : ¬ Fails (pure a : ExceptT ε (StateM σ) α) s cause := by
  show ¬ (.ok a : Except ε α) = .error cause
  simp

theorem fails_throw {e : ε} :
    Fails (throw e : ExceptT ε (StateM σ) α) s cause ↔ cause = e := by
  show (.error e : Except ε α) = .error cause ↔ _
  simp [eq_comm]

theorem not_fails_get : ¬ Fails (get : ExceptT ε (StateM σ) σ) s cause := by
  show ¬ (.ok s : Except ε σ) = .error cause
  simp

theorem not_fails_set {r : σ} : ¬ Fails (set r : ExceptT ε (StateM σ) Unit) s cause := by
  show ¬ (.ok () : Except ε Unit) = .error cause
  simp

theorem not_fails_modify {f : σ → σ} :
    ¬ Fails (modify f : ExceptT ε (StateM σ) Unit) s cause := by
  show ¬ (.ok () : Except ε Unit) = .error cause
  simp

end ClassWeave
