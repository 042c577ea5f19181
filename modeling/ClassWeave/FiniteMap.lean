/-!
# Finite maps

A finite map is a list of pairs in which every key stands at most once.  It stands for hashed and
for ordered maps alike: nothing depends on the order in which their entries are gone through.

* `FiniteMap.get?`, `insert`, `erase` : looking up, setting and forgetting a key.
* `FiniteMap.get?_insert`, `FiniteMap.get?_erase` : what is looked up afterwards.
* `FiniteMap.mem_entries` : what is looked up is what stands in the list.
-/

namespace ClassWeave

/-- A finite map from `κ` to `ν`. -/
structure FiniteMap (κ ν : Type) where
  /-- The pairs, the one set last in front. -/
  entries : List (κ × ν) := []
  /-- Every key stands at most once. -/
  distinct : (entries.map Prod.fst).Nodup := by decide
  deriving DecidableEq, Repr

namespace FiniteMap

variable {κ ν : Type}

/-- The map without keys. -/
def empty : FiniteMap κ ν := { entries := [], distinct := List.nodup_nil }

variable [DecidableEq κ]

/-- The value of the key `k`. -/
def get? (m : FiniteMap κ ν) (k : κ) : Option ν := m.entries.lookup k

/-- Whether the key `k` has a value. -/
def contains (m : FiniteMap κ ν) (k : κ) : Bool := (m.get? k).isSome

/-- The map without the key `k`. -/
def erase (m : FiniteMap κ ν) (k : κ) : FiniteMap κ ν where
  entries := m.entries.filter (·.1 ≠ k)
  distinct := m.distinct.sublist (List.filter_sublist.map Prod.fst)

/-- The map with the value `v` for the key `k`. -/
def insert (m : FiniteMap κ ν) (k : κ) (v : ν) : FiniteMap κ ν where
  entries := (k, v) :: (m.erase k).entries
  distinct := List.nodup_cons.2 ⟨by simp [erase], (m.erase k).distinct⟩

/-- The keys. -/
def keys (m : FiniteMap κ ν) : List κ := m.entries.map Prod.fst

/-- The number of keys. -/
def size (m : FiniteMap κ ν) : Nat := m.entries.length

/-- No keys at all. -/
def isEmpty (m : FiniteMap κ ν) : Bool := m.entries.isEmpty

@[simp] theorem get?_empty (k : κ) : (empty : FiniteMap κ ν).get? k = none := rfl

theorem lookup_filter_ne (l : List (κ × ν)) (k j : κ) :
    (l.filter (·.1 ≠ k)).lookup j = if j = k then none else l.lookup j := by
  induction l with
  | nil => simp
  | cons e l ih =>
    obtain ⟨i, v⟩ := e
    by_cases hi : i = k
    · rw [List.filter_cons_of_neg (by simp [hi]), ih]
      by_cases hj : j = k
      · simp [hj]
      · have hb : (j == i) = false := by simpa [hi] using hj
        simp [hj, List.lookup_cons, hb]
    · rw [List.filter_cons_of_pos (by simp [hi])]
      by_cases hj : j = i
      · subst hj
        simp [hi]
      · have hb : (j == i) = false := by simpa using hj
        rw [List.lookup_cons, List.lookup_cons, hb, ih]

theorem get?_erase (m : FiniteMap κ ν) (k j : κ) :
    (m.erase k).get? j = if j = k then none else m.get? j :=
  lookup_filter_ne m.entries k j

theorem get?_insert (m : FiniteMap κ ν) (k j : κ) (v : ν) :
    (m.insert k v).get? j = if j = k then some v else m.get? j := by
  by_cases h : j = k
  · subst h
    simp [insert, get?]
  · have hb : (j == k) = false := by simpa using h
    have := get?_erase m k j
    simp only [h, if_false] at this
    simp [insert, get?, List.lookup_cons, hb, h] at this ⊢
    exact this

/-- The pairs are what is looked up. -/
theorem mem_entries {m : FiniteMap κ ν} {k : κ} {v : ν} :
    (k, v) ∈ m.entries ↔ m.get? k = some v := by
  obtain ⟨entries, h⟩ := m
  unfold get?
  induction entries with
  | nil => simp
  | cons e entries ih =>
    obtain ⟨i, w⟩ := e
    obtain ⟨hnot, hrest⟩ := List.nodup_cons.1 h
    rw [List.mem_cons, ih hrest, List.lookup_cons]
    by_cases hi : k = i
    · subst hi
      have hnone : List.lookup k entries ≠ some v := fun hmem =>
        hnot (List.mem_map.2 ⟨(k, v), (ih hrest).2 hmem, rfl⟩)
      simp [hnone, eq_comm]
    · have hb : (k == i) = false := by simpa using hi
      simp [hi, hb]

end FiniteMap

end ClassWeave
