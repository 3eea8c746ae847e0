import MethodSig.Text.Blank

/-!
# Type texts

A type may be written with blanks between its parts, with pairs of brackets for its array
dimensions, and with three dots for one dimension more.
-/

namespace MethodSig.TypeText

/-- Removes all blanks and turns three dots at the end into a pair of brackets. -/
def normalize (s : List Char) : List Char :=
  match (Text.removeBlanks s).reverse with
  | '.' :: '.' :: '.' :: before => before.reverse ++ ['[', ']']
  | text => text.reverse

def isBracket (c : Char) : Bool :=
  c = '[' || c = ']'

/-- The number of bracket pairs that a text consists of, if it consists of nothing else. -/
def bracketPairs? : List Char → Option Nat
  | [] => some 0
  | '[' :: ']' :: rest => (bracketPairs? rest).map (· + 1)
  | _ => none

/-- Takes an array type apart into its base, which holds no bracket and is not empty, and the
number of its dimensions, which is positive. -/
def arraySuffix? (s : List Char) : Option (List Char × Nat) :=
  match s.takeWhile (!isBracket ·), bracketPairs? (s.dropWhile (!isBracket ·)) with
  | c :: base, some (n + 1) => some (c :: base, n + 1)
  | _, _ => none

theorem length_of_bracketPairs? {s : List Char} {n : Nat} (h : bracketPairs? s = some n) :
    s.length = 2 * n := by
  fun_induction bracketPairs? s generalizing n with
  | case1 =>
    simp only [Option.some.injEq] at h
    simp [← h]
  | case2 rest ih =>
    obtain ⟨m, hm, rfl⟩ := Option.map_eq_some_iff.1 h
    have := ih hm
    simp only [List.length_cons]
    omega
  | case3 => simp at h

/-- The dimensions that are taken off an array type are positive in number. -/
theorem dimensions_pos_of_arraySuffix? {s base : List Char} {n : Nat}
    (h : arraySuffix? s = some (base, n)) : 0 < n := by
  unfold arraySuffix? at h
  split at h
  · simp only [Option.some.injEq, Prod.mk.injEq] at h
    omega
  · simp at h

/-- An array type is its base and as many bracket pairs as it has dimensions. -/
theorem length_of_arraySuffix? {s base : List Char} {n : Nat}
    (h : arraySuffix? s = some (base, n)) : s.length = base.length + 2 * n := by
  unfold arraySuffix? at h
  split at h
  next c rest m hbase hpairs =>
    simp only [Option.some.injEq, Prod.mk.injEq] at h
    obtain ⟨rfl, rfl⟩ := h
    rw [← length_of_bracketPairs? hpairs, ← hbase, ← List.length_append,
      List.takeWhile_append_dropWhile]
  next => simp at h

theorem length_normalize_le (s : List Char) : (normalize s).length ≤ s.length := by
  have h := List.length_filter_le (!Text.isBlank ·) s
  unfold normalize
  split
  next before heq =>
    have := congrArg List.length heq
    simp only [Text.removeBlanks, List.length_reverse, List.length_cons] at this
    simp only [List.length_append, List.length_reverse, List.length_cons, List.length_nil]
    omega
  next => simpa [Text.removeBlanks] using h

end MethodSig.TypeText
