import MethodSig.Text.Word

/-!
# Identifiers

An identifier begins with a letter, an underscore or a dollar sign and goes on with those and
digits, in any script.
-/

namespace MethodSig.Signature

open Text

def beginsIdentifier (c : Char) : Bool :=
  c = '$' || (isWord c && !isDecimal c)

def insideIdentifier (c : Char) : Bool :=
  c = '$' || isWord c

def isIdentifier : List Char → Bool
  | [] => false
  | c :: rest => beginsIdentifier c && rest.all insideIdentifier

end MethodSig.Signature
