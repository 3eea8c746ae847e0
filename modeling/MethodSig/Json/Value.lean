import MethodSig.Json.Binary64

/-!
# JSON values

The fields of an object keep the order in which they were written. Numbers written with a fraction
or an exponent are kept apart from whole numbers, which may be of any size.
-/

namespace MethodSig

/-- A JSON value. -/
inductive Json where
  | null
  | bool (b : Bool)
  | int (n : Int)
  | float (x : Binary64)
  | string (s : String)
  /-- A string with an unpaired surrogate, which is no text. -/
  | brokenString
  | array (items : List Json)
  | object (fields : List (String × Json))
deriving Inhabited

namespace Json

/-- The greatest number of decimal digits that a whole number is read or written with. -/
def maxDigits : Nat := 4300

/-- Puts a field in the place of the one with its name, or at the end. -/
def setField (name : String) (value : Json) : List (String × Json) → List (String × Json)
  | [] => [(name, value)]
  | (n, v) :: rest =>
    if n = name then (name, value) :: rest else (n, v) :: setField name value rest

def field? (name : String) : Json → Option Json
  | .object fields => fields.lookup name
  | _ => none

end Json

end MethodSig
