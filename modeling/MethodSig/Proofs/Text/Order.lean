import Mathlib.Data.String.Basic
import MethodSig.Text.Order

/-!
# The order of texts is lexicographic

`textBefore` is the strict order of texts by code points, and `textsBefore` is the strict
lexicographic order of lists over it.
-/

namespace MethodSig.Text

/-- `precedes` over a test for the strict order of items is the strict lexicographic order. -/
theorem precedes_eq_true_iff {α : Type} [LinearOrder α] {before : α → α → Bool}
    (hbefore : ∀ a b, before a b = true ↔ a < b) (s t : List α) :
    precedes before s t = true ↔ s < t := by
  induction s generalizing t with
  | nil =>
      cases t with
      | nil => simp [precedes]
      | cons b t => simp [precedes]
  | cons a s ih =>
      cases t with
      | nil => simp [precedes]
      | cons b t =>
          rw [precedes, List.cons_lt_cons_iff]
          by_cases hab : a = b
          · rw [if_pos hab, ih]
            simp [hab]
          · rw [if_neg hab, hbefore]
            simp [hab]

theorem textBefore_eq_true_iff (s t : String) :
    textBefore s t = true ↔ s < t := by
  rw [textBefore, precedes_eq_true_iff, String.lt_iff_toList_lt]
  intro a b
  rw [decide_eq_true_eq]
  exact Iff.rfl

theorem textsBefore_eq_true_iff (s t : List String) :
    textsBefore s t = true ↔ s < t := by
  rw [textsBefore, precedes_eq_true_iff]
  exact textBefore_eq_true_iff

end MethodSig.Text
