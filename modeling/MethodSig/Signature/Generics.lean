/-!
# Removing type parameters

Type parameters stand in angle brackets and may nest. They are removed from the inside out: each
pass takes away every bracketed group that holds no bracket, and passes follow one another until
one changes nothing.
-/

namespace MethodSig.Signature

def isAngle (c : Char) : Bool :=
  c = '<' || c = '>'

/-- What follows the innermost group whose opening bracket has just been read, or nothing if
another opening bracket or the end comes before a closing one. -/
def afterGroup? (s : List Char) : Option (List Char) :=
  match s.dropWhile (!isAngle ·) with
  | '>' :: rest => some rest
  | _ => none

theorem length_of_afterGroup? {s rest : List Char} (h : afterGroup? s = some rest) :
    rest.length < s.length := by
  unfold afterGroup? at h
  split at h
  next r heq =>
    have hs := (List.dropWhile_sublist (l := s) (!isAngle ·)).length_le
    rw [heq, List.length_cons] at hs
    simp only [Option.some.injEq] at h
    subst h
    omega
  next => simp at h

/-- One pass: the text without its innermost bracketed groups. -/
def removeInnermost (s : List Char) : List Char :=
  match s with
  | [] => []
  | c :: rest =>
    if c = '<' then
      match h : afterGroup? rest with
      | some left =>
        have := length_of_afterGroup? h
        removeInnermost left
      | none => c :: removeInnermost rest
    else c :: removeInnermost rest
termination_by s.length

theorem length_removeInnermost_le (s : List Char) :
    (removeInnermost s).length ≤ s.length := by
  fun_induction removeInnermost s with
  | case1 => simp
  | case2 rest left h _ ih =>
    have := length_of_afterGroup? h
    simp only [List.length_cons]
    omega
  | case3 => simp_all
  | case4 => simp_all

/-- A pass that does not shorten the text leaves it as it is. -/
theorem removeInnermost_eq_self_of_length (s : List Char)
    (h : s.length ≤ (removeInnermost s).length) : removeInnermost s = s := by
  fun_induction removeInnermost s with
  | case1 => rfl
  | case2 rest left hg _ ih =>
    have := length_of_afterGroup? hg
    have := length_removeInnermost_le left
    simp only [List.length_cons] at h
    omega
  | case3 => simp_all
  | case4 => simp_all

def removeTypeParameters (s : List Char) : List Char :=
  if h : removeInnermost s = s then s
  else
    have : (removeInnermost s).length < s.length := by
      have := removeInnermost_eq_self_of_length s
      have := length_removeInnermost_le s
      grind
    removeTypeParameters (removeInnermost s)
termination_by s.length

end MethodSig.Signature
