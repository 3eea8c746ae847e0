import MethodSig.Text.CodeRanges

/-!
# Blank characters and words

Blanks separate the words of a text. Besides the space they are the line and page controls, the
four information separators and the space characters of the Unicode standard.
-/

namespace MethodSig.Text

def blankRanges : CodeRanges :=
  ⟨[(0x9, 0xd), (0x1c, 0x20), (0x85, 0x85), (0xa0, 0xa0), (0x1680, 0x1680), (0x2000, 0x200a),
    (0x2028, 0x2029), (0x202f, 0x202f), (0x205f, 0x205f), (0x3000, 0x3000)]⟩

def isBlank (c : Char) : Bool :=
  blankRanges.contains c

/-- A character that Unicode counts as white space: a blank that is no information separator. -/
def isWhiteSpace (c : Char) : Bool :=
  isBlank c && !(0x1c ≤ c.toNat && c.toNat ≤ 0x1f)

/-- The maximal runs of characters that are not blank, in order. -/
def words (s : List Char) : List (List Char) :=
  match h : s.dropWhile isBlank with
  | [] => []
  | c :: r =>
    have : (r.dropWhile (!isBlank ·)).length < s.length := by
      have hs := (List.dropWhile_sublist (l := s) isBlank).length_le
      have hr := (List.dropWhile_sublist (l := r) (!isBlank ·)).length_le
      rw [h, List.length_cons] at hs
      omega
    (c :: r.takeWhile (!isBlank ·)) :: words (r.dropWhile (!isBlank ·))
termination_by s.length

/-- The words of a text with one space between neighbours. -/
def collapse (s : List Char) : List Char :=
  [' '].intercalate (words s)

def strip (s : List Char) : List Char :=
  ((s.dropWhile isBlank).reverse.dropWhile isBlank).reverse

def removeBlanks (s : List Char) : List Char :=
  s.filter (!isBlank ·)

end MethodSig.Text
