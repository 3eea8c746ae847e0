import MethodSig.Text.Blank
import MethodSig.Text.Lines
import MethodSig.Text.Word

/-!
# Word characters are not blank

The classes of characters that the grammar uses are kept apart by their ranges of code points.
-/

namespace MethodSig.Text

/-- No range of the one set meets a range of the other. -/
def CodeRanges.isDisjoint (ranges others : CodeRanges) : Bool :=
  ranges.bounds.all fun range =>
    others.bounds.all fun other => range.2 < other.1 || other.2 < range.1

theorem CodeRanges.contains_eq_false_of_isDisjoint {ranges others : CodeRanges} {c : Char}
    (h : ranges.isDisjoint others = true) (hc : ranges.contains c = true) :
    others.contains c = false := by
  obtain ⟨range, hrange, hin⟩ := List.any_eq_true.mp hc
  simp only [Bool.and_eq_true, decide_eq_true_eq] at hin
  refine List.any_eq_false.mpr ?_
  intro other hother hin'
  have hapart := List.all_eq_true.mp (List.all_eq_true.mp h range hrange) other hother
  simp only [Bool.and_eq_true, Bool.or_eq_true, decide_eq_true_eq] at hin' hapart
  omega

theorem isDisjoint_blankRanges_wordRanges : blankRanges.isDisjoint wordRanges = true := by
  decide +kernel

/-- A test for characters can be checked on all of ASCII by evaluation. -/
theorem of_forall_ascii {p : Char → Bool} (h : (List.range 128).all (p <| Char.ofNat ·) = true)
    {c : Char} (hc : c.toNat < 128) : p c = true := by
  rw [← Char.ofNat_toNat c]
  exact List.all_eq_true.mp h c.toNat (List.mem_range.mpr hc)

theorem isWord_eq_false_of_isBlank {c : Char} (h : isBlank c = true) : isWord c = false := by
  by_cases hc : c.toNat < 128
  · have hascii := of_forall_ascii (p := fun c => !isBlank c || !isWord c) (by decide +kernel) hc
    simpa [h] using hascii
  · rw [isWord, if_neg hc]
    exact CodeRanges.contains_eq_false_of_isDisjoint isDisjoint_blankRanges_wordRanges h

theorem isBlank_of_isLineBreak {c : Char} (h : isLineBreak c = true) : isBlank c = true := by
  simp only [isLineBreak, Bool.or_eq_true, Bool.and_eq_true, decide_eq_true_eq, beq_iff_eq] at h
  simp only [isBlank, CodeRanges.contains, blankRanges, List.any_cons, List.any_nil,
    Bool.or_eq_true, Bool.and_eq_true, decide_eq_true_eq]
  omega

end MethodSig.Text
