import MethodSig.Log
import MethodSig.Method.Consistency
import MethodSig.Signature.Malformed

/-!
# Diagnostics

Every way in which compiling a batch can fail. A diagnostic holds the offending text, so that it
can be reported without looking at the batch again.
-/

namespace MethodSig

/-- Why a batch does not compile. -/
inductive Diagnostic where
  | malformed (signature : Signature.Malformed)
  | unresolvedType (text : String)
  | unboundMember (signature target : String)
  | conflictingArgument (conflict : ArgumentConflict)
  | duplicateMethods (first second : String)
  | invalidArgumentName (name : String)
deriving DecidableEq

namespace Diagnostic

def message : Diagnostic → String
  | .malformed signature => signature.message
  | .unresolvedType text => s!"Error loading type {text}"
  | .unboundMember signature target => s!"Method not found [{signature}] in type {target}"
  | .conflictingArgument conflict =>
    s!"Argument [{conflict.name}] is used in multiple methods with different types " ++
      s!"{conflict.first.name}, {conflict.second.name}"
  | .duplicateMethods first second => s!"Duplicate methods found [{first}], [{second}]"
  | .invalidArgumentName name => s!"Invalid argument name: {Text.quoted name}"

/-- What is reported below the message, if there is more to say. -/
def details : Diagnostic → Option String
  | .malformed signature => signature.flaw.map Signature.Flaw.message
  | _ => none

end Diagnostic

/-- A computation that leaves log entries and may end in a diagnostic. The entries up to there
are kept. -/
abbrev Attempt := ExceptT Diagnostic Logged

end MethodSig
