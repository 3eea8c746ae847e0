import MethodSig.Text.Quoted

/-!
# Malformed signatures
-/

namespace MethodSig.Signature

/-- What is wrong with a signature whose outline is recognised. -/
inductive Flaw where
  | methodName (name : String)
  /-- The rest of the argument list does not begin with an argument. -/
  | argumentText (rest : String)
  | argumentName (name : String)
deriving DecidableEq, Repr

/-- A signature that does not follow the grammar. Where not even its outline is recognised, no
flaw is named. -/
structure Malformed where
  signature : String
  flaw : Option Flaw
deriving DecidableEq, Repr

def Flaw.message : Flaw → String
  | .methodName name => s!"Invalid method name {Text.quoted name}"
  | .argumentText rest => s!"Unexpected argument text {Text.quoted rest}"
  | .argumentName name => s!"Invalid argument name {Text.quoted name}"

def Malformed.message (m : Malformed) : String :=
  "Invalid method signature " ++ m.signature

end MethodSig.Signature
