import ClassWeave.Descriptor

/-!
# Descriptors of kinds

* `ValueKind.cases_of_parse` : a descriptor denotes a kind without brackets, or an array.
* `ValueKind.descriptor_of_parse` : a kind has the descriptor that it was parsed from.
-/

namespace ClassWeave

namespace ValueKind

theorem toList_descriptor_of_ofElement? {cs : List Char} {kind : ValueKind}
    (h : ofElement? cs = some kind) : kind.descriptor.toList = cs := by
  unfold ofElement? at h
  split at h
  case h_9 rest =>
    split at h
    · rename_i hrest
      obtain ⟨name, rfl⟩ := List.getLast?_eq_some_iff.1 hrest.1
      cases h
      simp [descriptor, String.toList_append]
    · cases h
  case h_10 => cases h
  all_goals
    cases h
    rfl

/-- What a descriptor denotes: a kind without brackets, or an array of the kind behind them. -/
theorem cases_of_parse {text : String} {kind : ValueKind} (h : parse text = .ok kind) :
    ofElement? text.toList = some kind ∨ kind = array text ∧ ∃ brackets element,
      (∀ c ∈ brackets, c = '[') ∧
      text.toList = '[' :: brackets ++ text.toList.dropWhile (· == '[') ∧
      ofElement? (text.toList.dropWhile (· == '[')) = some element := by
  unfold parse at h
  simp only at h
  split at h
  case h_2 => cases h
  rename_i element helement
  cases hlist : text.toList with
  | nil =>
    rw [hlist] at helement
    cases helement
  | cons c cs =>
    rw [hlist] at h helement
    by_cases hc : c = '['
    · subst hc
      rw [List.head?_cons, if_pos rfl] at h
      cases h
      refine .inr ⟨rfl, cs.takeWhile (· == '['), element, fun c hc => ?_, ?_, helement⟩
      · simpa using List.all_eq_true.1 (List.all_takeWhile (l := cs)) c hc
      · rw [List.dropWhile_cons_of_pos (by decide), List.cons_append,
          List.takeWhile_append_dropWhile]
    · rw [List.dropWhile_cons_of_neg (by simpa using hc)] at helement
      rw [List.head?_cons, if_neg (by simpa using hc)] at h
      cases h
      exact .inl helement

/-- **A kind has the descriptor that it was parsed from.** -/
theorem descriptor_of_parse {text : String} {kind : ValueKind} (h : parse text = .ok kind) :
    kind.descriptor = text := by
  rcases cases_of_parse h with helement | ⟨rfl, -⟩
  · exact String.toList_inj.1 (toList_descriptor_of_ofElement? helement)
  · rfl

theorem parse_descriptor_of_parse {text : String} {kind : ValueKind} (h : parse text = .ok kind) :
    parse kind.descriptor = .ok kind := by
  rw [descriptor_of_parse h, h]

end ValueKind

end ClassWeave
