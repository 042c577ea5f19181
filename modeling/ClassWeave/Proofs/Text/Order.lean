/-!
# Lists in the order of their texts

The units of a store, the class files of a directory and the lists of a report are all sorted in one
way: nothing stands behind something whose text comes later.

* `Text.pairwise_mergeSort` : what is sorted is in order.
* `Text.not_lt_iff_le` : the order that sorting asks for.
-/

namespace ClassWeave

namespace Text

/-- The order of texts, as far as sorting asks for it. -/
theorem not_lt_iff_le {a b : String} : (!(b < a) : Bool) = true ↔ a ≤ b := by
  rw [Bool.not_eq_true', decide_eq_false_iff_not, String.not_lt]

/-- **What is sorted is in order.** -/
theorem pairwise_mergeSort {α : Type} (text : α → String) (l : List α) :
    (l.mergeSort fun a b => !(text b < text a)).Pairwise fun a b => !(text b < text a) := by
  refine List.pairwise_mergeSort (fun a b c hab hbc => ?_) (fun a b => ?_) l
  · rw [not_lt_iff_le] at *
    exact String.le_trans hab hbc
  · rw [Bool.or_eq_true, not_lt_iff_le, not_lt_iff_le]
    exact String.le_total (text a) (text b)

end Text

end ClassWeave
