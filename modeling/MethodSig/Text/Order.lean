/-!
# The order of texts

Texts are ordered by the code points of their first difference, and a text stands before every
text that it begins. Sequences of texts are ordered in the same way by their first different texts.
-/

namespace MethodSig.Text

/-- Whether a sequence stands before another, given which items stand before others. -/
def precedes {α : Type} [DecidableEq α] (before : α → α → Bool) : List α → List α → Bool
  | _, [] => false
  | [], _ :: _ => true
  | a :: s, b :: t => if a = b then precedes before s t else before a b

def textBefore (s t : String) : Bool :=
  precedes (fun a b => a.toNat < b.toNat) s.toList t.toList

def textsBefore (s t : List String) : Bool :=
  precedes textBefore s t

end MethodSig.Text
