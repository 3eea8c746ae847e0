import MethodSig.Signature.Argument
import MethodSig.Signature.Generics
import MethodSig.Signature.Modifier

/-!
# Tokens of a method signature

A signature is cleaned first: type parameters and modifiers are removed and blanks collapse to
single spaces. Then it must read as a result type, a method name, an argument list in parentheses
and an optional semicolon.
-/

namespace MethodSig.Signature

open Text

/-- A cleaned signature taken apart, before any type is resolved. -/
structure Tokens where
  signature : String
  resultType : String
  name : String
  arguments : List (String × String)
deriving DecidableEq, Repr

/-- Removes type parameters and modifiers and collapses blanks. -/
def clean (s : List Char) : List Char :=
  collapse (blankModifiers (removeTypeParameters s))

/-- The text before and the text after the last opening parenthesis. -/
def splitAtLastOpening (s : List Char) : Option (List Char × List Char) :=
  match s.reverse.dropWhile (· ≠ '(') with
  | [] => none
  | _ :: before => some (before.reverse, (s.reverse.takeWhile (· ≠ '(')).reverse)

/-- What may follow the closing parenthesis: blanks around at most one semicolon. -/
def isEnding (s : List Char) : Bool :=
  strip s = [] || strip s = [';']

/-- The outline of a cleaned signature: its result type, its method name and the text between
its last pair of parentheses. -/
def outline? (s : List Char) : Option (List Char × List Char × List Char) := do
  let (before, after) ← splitAtLastOpening s
  let [resultType, name] := words before | none
  let ')' :: ending := after.dropWhile (· ≠ ')') | none
  guard (isEnding ending)
  return (resultType, name, after.takeWhile (· ≠ ')'))

def tokenize (signature : String) : Except Malformed Tokens :=
  let cleaned := clean signature.toList
  match outline? cleaned with
  | none => .error ⟨signature, none⟩
  | some (resultType, name, arguments) =>
    if isIdentifier name then
      (tokenizeArguments (String.ofList arguments) signature).map fun arguments =>
        ⟨String.ofList cleaned, String.ofList resultType, String.ofList name, arguments⟩
    else .error ⟨signature, some (.methodName (String.ofList name))⟩

end MethodSig.Signature
