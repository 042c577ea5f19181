import ClassWeave.Entity.Identity
import Mathlib.Data.Finset.Card

/-!
# Identifiers are one to one

Which entity has which identifier is kept twice, by entity and by identifier, and both maps are
changed in steps.  The reference is a set of pairs: binding takes out every pair that holds one of
the two, and puts the new pair in.

* `Identities.lookup_bind`, `identifierOf_bind`, `lookup_release`, `identifierOf_release` : what is
  looked up after a call, whatever the two maps hold.
* `Bindings` : the reference.
* `Identities.Call`, `Identities.after` : the calls that change something, and what they lead to.
  Each takes effect at once, so the calls of several callers are one list of calls.
* `Identities.Mirrors` : both maps hold the pairs of the reference; `Mirrors.call` keeps it so, and
  `Identities.mirrors_after` has it after every list of calls.
* `Identities.oneToOne_after` : the identifiers are one to one.
-/

namespace ClassWeave

namespace Identities

variable (m : Identities) (e other : Entity) (i j : Identifier)

/-! ### What is looked up after a call -/

theorem lookup_dropIdentifier : (m.dropIdentifier i e).lookup j =
    if j = i ∧ m.lookup i = some e then none else m.lookup j := by
  unfold dropIdentifier
  by_cases howner : m.lookup i = some e
  · rw [if_pos howner]
    simp only [howner, and_true]
    exact FiniteMap.get?_erase m.byIdentifier i j
  · simp only [howner, and_false, if_false]

theorem byEntity_dropIdentifier : (m.dropIdentifier i e).byEntity = m.byEntity := by
  unfold dropIdentifier
  split <;> rfl

theorem lookup_dropPrevious : (m.dropPrevious e i).lookup j =
    if j ≠ i ∧ m.identifierOf e = some j ∧ m.lookup j = some e then none else m.lookup j := by
  unfold dropPrevious
  cases m.identifierOf e with
  | none => simp
  | some previous =>
    by_cases hsame : previous = i
    · subst hsame
      simp only [if_true, Option.some.injEq]
      rw [if_neg fun h => h.1 h.2.1.symm]
    · simp only [if_neg hsame, lookup_dropIdentifier, Option.some.injEq]
      grind

theorem byEntity_dropPrevious : (m.dropPrevious e i).byEntity = m.byEntity := by
  unfold dropPrevious
  split
  · split
    · rfl
    · exact m.byEntity_dropIdentifier ..
  · rfl

theorem identifierOf_dropDisplaced : (m.dropDisplaced e i).identifierOf other =
    if other ≠ e ∧ m.lookup i = some other then none else m.identifierOf other := by
  unfold dropDisplaced
  cases m.lookup i with
  | none => simp
  | some displaced =>
    by_cases hsame : displaced = e
    · subst hsame
      simp only [if_true, Option.some.injEq]
      rw [if_neg fun h => h.1 h.2.symm]
    · simp only [if_neg hsame, Option.some.injEq]
      rw [identifierOf, FiniteMap.get?_erase]
      grind [identifierOf]

theorem byIdentifier_dropDisplaced : (m.dropDisplaced e i).byIdentifier = m.byIdentifier := by
  unfold dropDisplaced
  split
  · split <;> rfl
  · rfl

/-- A binding gives the identifier to the entity, and the one that the entity had to nobody. -/
theorem lookup_bind : (m.bind e i).lookup j =
    if j = i then some e
    else if m.identifierOf e = some j ∧ m.lookup j = some e then none else m.lookup j := by
  have hbind : (m.bind e i).lookup j =
    (((m.dropPrevious e i).dropDisplaced e i).byIdentifier.insert i e).get? j := rfl
  rw [hbind, byIdentifier_dropDisplaced, FiniteMap.get?_insert]
  by_cases hsame : j = i
  · rw [if_pos hsame, if_pos hsame]
  · have hdrop := m.lookup_dropPrevious e i j
    simp only [ne_eq, hsame, not_false_eq_true, true_and] at hdrop
    rw [if_neg hsame, if_neg hsame, ← hdrop, lookup]

/-- A binding gives the entity the identifier, and none to the entity that had it. -/
theorem identifierOf_bind : (m.bind e i).identifierOf other =
    if other = e then some i
    else if m.lookup i = some other then none else m.identifierOf other := by
  have hbind : (m.bind e i).identifierOf other =
    (((m.dropPrevious e i).dropDisplaced e i).byEntity.insert e i).get? other := rfl
  rw [hbind, FiniteMap.get?_insert]
  by_cases hsame : other = e
  · rw [if_pos hsame, if_pos hsame]
  · have hdrop := (m.dropPrevious e i).identifierOf_dropDisplaced e other i
    -- the entity loses its previous identifier, which is another one
    have hlookup : (m.dropPrevious e i).lookup i = m.lookup i := by
      rw [lookup_dropPrevious, if_neg fun h => h.1 rfl]
    have hidentifier : (m.dropPrevious e i).identifierOf other = m.identifierOf other := by
      rw [identifierOf, byEntity_dropPrevious, identifierOf]
    simp only [ne_eq, hsame, not_false_eq_true, true_and, hlookup, hidentifier] at hdrop
    rw [if_neg hsame, if_neg hsame, ← hdrop, identifierOf]

/-- Forgetting an entity takes its identifier away while it belongs to the entity. -/
theorem lookup_release : (m.release e).lookup j =
    if m.identifierOf e = some j ∧ m.lookup j = some e then none else m.lookup j := by
  unfold release
  cases m.identifierOf e with
  | none => simp
  | some i =>
    have hdrop :=
      ({ m with byEntity := m.byEntity.erase e } : Identities).lookup_dropIdentifier e i j
    have hsame (k : Identifier) :
      ({ m with byEntity := m.byEntity.erase e } : Identities).lookup k = m.lookup k := rfl
    simp only [hsame] at hdrop
    simp only [hdrop, Option.some.injEq]
    grind

theorem identifierOf_release : (m.release e).identifierOf other =
    if other = e then none else m.identifierOf other := by
  unfold release
  cases hfound : m.identifierOf e with
  | none =>
    by_cases hsame : other = e
    · rw [if_pos hsame, hsame, hfound]
    · rw [if_neg hsame]
  | some i =>
    rw [identifierOf, byEntity_dropIdentifier]
    exact FiniteMap.get?_erase m.byEntity e other

variable {m e i}

/-- Only new identifiers are counted. -/
theorem generated_bind : (m.bind e i).generated = m.generated := by
  unfold bind dropDisplaced dropPrevious dropIdentifier
  grind

theorem generated_release : (m.release e).generated = m.generated := by
  unfold release dropIdentifier
  grind

/-! ### Calls and the reference -/

/-- A call that changes which entity has which identifier. -/
inductive Call where
  /-- An entity is given an identifier, a new one if none is named. -/
  | assign (entity : Entity) (identifier? : Option Identifier)
  /-- An entity is given another identifier. -/
  | reassign (entity : Entity) (identifier : Identifier)
  /-- An entity is forgotten. -/
  | release (entity : Entity)
  deriving DecidableEq, Repr

/-- What a call changes. -/
def call (m : Identities) : Call → Identities
  | .assign entity identifier? => (m.assign entity identifier?).2
  | .reassign entity identifier => m.bind entity identifier
  | .release entity => m.release entity

/-- What calls lead to, one after the other, when nobody has an identifier before them. -/
def after (calls : List Call) : Identities := calls.foldl call {}

end Identities

/-- Entities with their identifiers, as a set of pairs. -/
structure Bindings where
  /-- The pairs. -/
  pairs : Finset (Entity × Identifier) := ∅
  /-- How many identifiers were made up. -/
  generated : Nat := 0

namespace Bindings

variable (b : Bindings) (e : Entity) (i : Identifier)

/-- Takes out every pair that holds the entity or the identifier, and puts the pair of both in. -/
def bind : Bindings :=
  { b with pairs := insert (e, i) (b.pairs.filter fun p => p.1 ≠ e ∧ p.2 ≠ i) }

/-- Takes out the pair that holds the entity. -/
def release : Bindings := { b with pairs := b.pairs.filter fun p => p.1 ≠ e }

/-- What a call changes.  An identifier that is made up counts as one that is named. -/
def call (b : Bindings) : Identities.Call → Bindings
  | .assign entity (some identifier) => b.bind entity identifier
  | .assign entity none =>
    { b with generated := b.generated + 1 }.bind entity (.generated b.generated)
  | .reassign entity identifier => b.bind entity identifier
  | .release entity => b.release entity

/-- What calls lead to, one after the other, when there are no pairs before them. -/
def after (calls : List Identities.Call) : Bindings := calls.foldl call {}

end Bindings

/-! ### The maps mirror the reference -/

/-- A finite map of which each pair is one of a set, and the other way round, has as many keys as
the set has pairs. -/
theorem FiniteMap.size_eq_card {κ ν : Type} [DecidableEq κ] [DecidableEq ν] {m : FiniteMap κ ν}
    {pairs : Finset (κ × ν)}
    (hpairs : ∀ k v, m.get? k = some v ↔ (k, v) ∈ pairs) : m.size = pairs.card := by
  have hentries : m.entries.toFinset = pairs := by
    ext ⟨k, v⟩
    rw [List.mem_toFinset, mem_entries, hpairs]
  rw [← hentries, List.toFinset_card_of_nodup (List.Nodup.of_map Prod.fst m.distinct), size]

namespace Identities

variable {m : Identities} {b : Bindings}

/-- Both maps hold the pairs of the reference, and no others. -/
structure Mirrors (m : Identities) (b : Bindings) : Prop where
  /-- By entity. -/
  byEntity : ∀ e i, m.identifierOf e = some i ↔ (e, i) ∈ b.pairs
  /-- By identifier. -/
  byIdentifier : ∀ e i, m.lookup i = some e ↔ (e, i) ∈ b.pairs
  /-- As many identifiers were made up. -/
  generated : m.generated = b.generated

namespace Mirrors

theorem lookup_eq_some_iff (h : m.Mirrors b) {e : Entity} {i : Identifier} :
    m.lookup i = some e ↔ m.identifierOf e = some i := by
  rw [h.byIdentifier, h.byEntity]

/-- What a map has for a key once a value has been bound to a key and taken from all others. -/
theorem bound_eq_some_iff {κ ν : Type} [DecidableEq κ] {k bound : κ} {v value : ν} {old : Option ν}
    {p : Prop} [Decidable p] (hp : p ↔ old = some value) :
    (if k = bound then some value else if p then none else old) = some v ↔
      k = bound ∧ v = value ∨ old = some v ∧ k ≠ bound ∧ v ≠ value := by
  by_cases hself : k = bound
  · simp [hself, eq_comm]
  by_cases hlost : old = some value
  · simp [hself, hp, hlost, eq_comm]
  · rw [if_neg hself, if_neg (hp.not.2 hlost)]
    constructor
    · intro hv
      exact .inr ⟨hv, hself, fun heq => hlost (heq ▸ hv)⟩
    · rintro (⟨heq, -⟩ | ⟨hv, -⟩)
      · exact absurd heq hself
      · exact hv

theorem bind (h : m.Mirrors b) (e : Entity) (i : Identifier) :
    (m.bind e i).Mirrors (b.bind e i) := by
  refine ⟨fun other j => ?_, fun other j => ?_, ?_⟩
  · rw [identifierOf_bind, bound_eq_some_iff h.lookup_eq_some_iff, h.byEntity, Bindings.bind,
      Finset.mem_insert, Finset.mem_filter, Prod.mk.injEq]
  · -- the entity had the identifier in both maps
    have hheld : m.identifierOf e = some j ∧ m.lookup j = some e ↔ m.lookup j = some e := by
      rw [h.lookup_eq_some_iff, and_self]
    rw [lookup_bind, bound_eq_some_iff hheld, h.byIdentifier, Bindings.bind,
      Finset.mem_insert, Finset.mem_filter, Prod.mk.injEq]
    tauto
  · rw [generated_bind, h.generated, Bindings.bind]

theorem release (h : m.Mirrors b) (e : Entity) : (m.release e).Mirrors (b.release e) := by
  refine ⟨fun other j => ?_, fun other j => ?_, ?_⟩
  · rw [identifierOf_release, Bindings.release, Finset.mem_filter, ← h.byEntity]
    by_cases hself : other = e
    · simp [hself]
    · simp [hself]
  · rw [lookup_release, Bindings.release, Finset.mem_filter, ← h.byIdentifier]
    have hloses : m.identifierOf e = some j ↔ m.lookup j = some e := h.lookup_eq_some_iff.symm
    by_cases hlost : m.lookup j = some e
    · simp [hloses, hlost, eq_comm]
    · rw [if_neg fun hboth => hlost hboth.2]
      exact ⟨fun hj => ⟨hj, fun heq => hlost (heq ▸ hj)⟩, And.left⟩
  · rw [generated_release, h.generated, Bindings.release]

/-- **One call** leaves both maps a mirror of the reference. -/
theorem call (h : m.Mirrors b) (c : Call) : (m.call c).Mirrors (b.call c) := by
  cases c with
  | assign e i? =>
    cases i? with
    | some i => exact h.bind e i
    | none =>
      have hcounted : ({ m with generated := m.generated + 1 } : Identities).Mirrors
          { b with generated := m.generated + 1 } :=
        ⟨h.byEntity, h.byIdentifier, rfl⟩
      rw [Bindings.call, ← h.generated]
      exact hcounted.bind e (.generated m.generated)
  | reassign e i => exact h.bind e i
  | release e => exact h.release e

end Mirrors

/-- **All calls** leave both maps a mirror of the reference. -/
theorem mirrors_after (calls : List Call) : (after calls).Mirrors (Bindings.after calls) := by
  suffices hrun : ∀ m b, m.Mirrors b → (calls.foldl call m).Mirrors (calls.foldl Bindings.call b) by
    refine hrun {} {} ⟨fun e i => ?_, fun e i => ?_, rfl⟩
    · simp [identifierOf]
    · simp [lookup]
  induction calls with
  | nil => exact fun _ _ h => h
  | cons c calls ih => exact fun m b h => ih _ _ (h.call c)

/-! ### One to one -/

/-- Entities and identifiers belong to each other one to one. -/
structure OneToOne (m : Identities) : Prop where
  /-- Looking up by identifier and looking up by entity undo each other. -/
  inverse : ∀ e i, m.lookup i = some e ↔ m.identifierOf e = some i
  /-- No two entities have one identifier. -/
  entities : ∀ e e' i, m.identifierOf e = some i → m.identifierOf e' = some i → e = e'
  /-- No entity has two identifiers. -/
  identifiers : ∀ e i i', m.lookup i = some e → m.lookup i' = some e → i = i'
  /-- Forgetting an entity, also one that has lost its identifier to another, takes nothing from the
  others. -/
  others : ∀ e e' i, m.lookup i = some e' → e' ≠ e →
    (m.release e).lookup i = some e' ∧ (m.release e).identifierOf e' = some i

theorem Mirrors.oneToOne (h : m.Mirrors b) : m.OneToOne := by
  refine ⟨fun e i => h.lookup_eq_some_iff, fun e e' i he he' => ?_, fun e i i' hi hi' => ?_,
    fun e e' i hi hne => ?_⟩
  · rw [← h.lookup_eq_some_iff] at he he'
    exact Option.some.inj (he.symm.trans he')
  · rw [h.lookup_eq_some_iff] at hi hi'
    exact Option.some.inj (hi.symm.trans hi')
  · have hidentifier : (m.release e).identifierOf e' = some i := by
      rw [identifierOf_release, if_neg hne, ← h.lookup_eq_some_iff, hi]
    exact ⟨(h.release e).lookup_eq_some_iff.2 hidentifier, hidentifier⟩

/-- **Identifiers are one to one.**  After every list of calls the maps hold the pairs of the
reference, and as many as it has; so looking up by identifier and by entity undo each other, nobody
has two of the other, and forgetting an entity leaves identifiers alone that others have taken
over. -/
theorem oneToOne_after (calls : List Call) :
    (after calls).Mirrors (Bindings.after calls) ∧ (after calls).OneToOne ∧
      (after calls).size = (Bindings.after calls).pairs.card := by
  have h := mirrors_after calls
  exact ⟨h, h.oneToOne, FiniteMap.size_eq_card h.byEntity⟩

/-- An entity takes the identifier of another one over before that is forgotten. -/
example :
    let u : Identifier := .given ⟨7⟩
    let m := after [.assign ⟨1⟩ (some u), .assign ⟨2⟩ none, .reassign ⟨2⟩ u, .release ⟨1⟩]
    m.lookup u = some ⟨2⟩ ∧ m.identifierOf ⟨2⟩ = some u ∧ m.lookup (.generated 0) = none ∧
      m.size = 1 := by
  decide

end Identities

end ClassWeave
