import MethodSig.Log
import MethodSig.Method.Basic
import MethodSig.Text.Order

/-!
# Canonical order

Methods are ordered by name, then by the number of their arguments, then by the names of the
arguments position by position. Methods that agree in all three keep their relative order and are
reported as probable duplicates.
-/

namespace MethodSig

/-- What to do about methods that agree in their sort keys. -/
inductive DuplicatePolicy where
  | warn
  | reject
deriving DecidableEq, Repr, Inhabited

/-- What decides the place of a method in a batch. -/
structure SortKey where
  name : String
  arity : Nat
  argumentNames : List String
deriving DecidableEq, Repr

/-- Whether a key stands no later than another. Names compare by code points. -/
def SortKey.le (a b : SortKey) : Bool :=
  if a.name ≠ b.name then Text.textBefore a.name b.name
  else if a.arity ≠ b.arity then a.arity < b.arity
  else !Text.textsBefore b.argumentNames a.argumentNames

namespace Method

def sortKey (m : Method) : SortKey :=
  ⟨m.name, m.arguments.length, m.argumentNames⟩

/-- The methods in canonical order; equal keys keep their relative order. -/
def inOrder (methods : List Method) : List Method :=
  methods.mergeSort fun a b => a.sortKey.le b.sortKey

/-- The neighbours of an ordered batch that agree in their sort keys. -/
def duplicates (ordered : List Method) : List (Method × Method) :=
  (ordered.zip ordered.tail).filter fun pair => pair.1.sortKey = pair.2.sortKey

/-- Sorts a batch. Each pair of duplicates leaves a warning, unless duplicates are refused: then
the first pair is given back. -/
def sort (policy : DuplicatePolicy) (methods : List Method) :
    Logged (Except (Method × Method) (List Method)) :=
  let ordered := inOrder methods
  match policy, duplicates ordered with
  | .reject, pair :: _ => pure (.error pair)
  | _, pairs => ⟨.ok ordered, pairs.map fun pair => .duplicateMethods pair.1.render pair.2.render⟩

end Method

end MethodSig
