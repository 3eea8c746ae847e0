import Mathlib.Data.List.Basic
import MethodSig.Text.Lines

/-!
# Lines that were written one by one
-/

namespace MethodSig.Text

/-- A character that does not end a line stands first in the line after it. -/
theorem lines_cons {c : Char} (hc : isLineBreak c = false) {line : List Char}
    {s : List Char} {others : List (List Char)} (hs : lines s = line :: others) :
    lines (c :: s) = (c :: line) :: others := by
  have hreturn : c ≠ '\r' := by
    rintro rfl
    contradiction
  rw [lines, hs, hc]
  · rfl
  · intro rest heq _
    exact hreturn heq

theorem lines_append_cons {line : List Char} (hline : ∀ c ∈ line, isLineBreak c = false)
    (s : List Char) : lines (line ++ '\n' :: s) = line :: lines s := by
  induction line with
  | nil =>
      rw [List.nil_append, lines]
      · rfl
      · simp
  | cons c line ih =>
      obtain ⟨hc, hline⟩ := List.forall_mem_cons.mp hline
      exact lines_cons hc (ih hline)

/-- Lines that are written with a line feed after each are read back. -/
theorem lines_flatMap {written : List (List Char)}
    (h : ∀ line ∈ written, ∀ c ∈ line, isLineBreak c = false) :
    lines (written.flatMap (· ++ ['\n'])) = written := by
  induction written with
  | nil => rfl
  | cons line written ih =>
      obtain ⟨hline, hwritten⟩ := List.forall_mem_cons.mp h
      rw [List.flatMap_cons, List.append_assoc, List.singleton_append, lines_append_cons hline,
        ih hwritten]

end MethodSig.Text
