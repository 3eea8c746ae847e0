/-!
# Sets of characters as code point ranges
-/

namespace MethodSig.Text

/-- A set of characters, written as inclusive ranges of code points. -/
structure CodeRanges where
  bounds : List (Nat × Nat)

def CodeRanges.contains (ranges : CodeRanges) (c : Char) : Bool :=
  ranges.bounds.any fun range => range.1 ≤ c.toNat && c.toNat ≤ range.2

end MethodSig.Text
