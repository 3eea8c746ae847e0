import MethodSig.Signature.Identifier

/-!
# Declaration modifiers
-/

namespace MethodSig.Signature

/-- The keywords that may stand before the result type of a method. -/
def modifiers : List String :=
  ["abstract", "default", "final", "native", "private", "protected", "public", "static",
    "strictfp", "synchronized"]

def isModifier (run : List Char) : Bool :=
  modifiers.any (·.toList == run)

/-- The text cut into maximal runs of identifier characters and single other characters. -/
def identifierRuns (s : List Char) : List (List Char) :=
  s.splitBy fun a b => insideIdentifier a && insideIdentifier b

/-- The text with a space in place of each modifier. A modifier inside a longer run of identifier
characters is part of a name and stays. -/
def blankModifiers (s : List Char) : List Char :=
  (identifierRuns s).flatMap fun run => if isModifier run then [' '] else run

end MethodSig.Signature
