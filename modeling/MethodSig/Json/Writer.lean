import MethodSig.Json.Value
import MethodSig.Text.Quoted

/-!
# Writing JSON

A value is written with one item or field a line, two spaces further in for each level. Only
quotes, backslashes and control characters are escaped. A string that is no text is written as a
replacement character. A value with a whole number of too many digits is not written at all.
-/

namespace MethodSig.Json

def escapeChar (c : Char) : List Char :=
  if c = '"' then ['\\', '"']
  else if c = '\\' then ['\\', '\\']
  else if c = '\n' then ['\\', 'n']
  else if c = '\r' then ['\\', 'r']
  else if c = '\t' then ['\\', 't']
  else if c = '\x08' then ['\\', 'b']
  else if c = '\x0c' then ['\\', 'f']
  else if c.toNat < 0x20 then '\\' :: 'u' :: Text.hexadecimal 4 c.toNat
  else [c]

def writeString (s : String) : List Char :=
  '"' :: s.toList.flatMap escapeChar ++ ['"']

def newline (level : Nat) : List Char :=
  '\n' :: List.replicate (2 * level) ' '

/-- A number in double precision, with all its decimal digits. -/
def writeFloat : Binary64 → List Char
  | .nan => "NaN".toList
  | .infinite true => "-Infinity".toList
  | .infinite false => "Infinity".toList
  | .finite negative significand exponent =>
    let places := if exponent < 0 then exponent.natAbs else 0
    let scaled := significand * Nat.pow (if exponent < 0 then 5 else 2) exponent.natAbs
    let fraction := Nat.toDigits 10 (scaled % Nat.pow 10 places)
    (if negative then ['-'] else []) ++ Nat.toDigits 10 (scaled / Nat.pow 10 places) ++ '.' ::
      List.replicate (places - fraction.length) '0' ++ fraction

mutual

def write (level : Nat) : Json → List Char
  | .null => "null".toList
  | .bool true => "true".toList
  | .bool false => "false".toList
  | .int n => (toString n).toList
  | .float x => writeFloat x
  | .string s => writeString s
  | .brokenString => writeString "\ufffd"
  | .array [] => ['[', ']']
  | .array (item :: rest) =>
    '[' :: newline (level + 1) ++ write (level + 1) item ++ writeItems (level + 1) rest ++
      newline level ++ [']']
  | .object [] => ['\x7b', '\x7d']
  | .object ((name, value) :: rest) =>
    '\x7b' :: newline (level + 1) ++ writeString name ++ [':', ' '] ++ write (level + 1) value ++
      writeFields (level + 1) rest ++ newline level ++ ['\x7d']

def writeItems (level : Nat) : List Json → List Char
  | [] => []
  | item :: rest => ',' :: newline level ++ write level item ++ writeItems level rest

def writeFields (level : Nat) : List (String × Json) → List Char
  | [] => []
  | (name, value) :: rest =>
    ',' :: newline level ++ writeString name ++ [':', ' '] ++ write level value ++
      writeFields level rest

end

def render (value : Json) : String :=
  String.ofList (value.write 0)

mutual

/-- Whether no whole number in the value has too many digits. -/
def isWritable : Json → Bool
  | .int n => (Nat.toDigits 10 n.natAbs).length ≤ maxDigits
  | .array items => areWritable items
  | .object fields => haveWritableValues fields
  | _ => true

def areWritable : List Json → Bool
  | [] => true
  | item :: rest => item.isWritable && areWritable rest

def haveWritableValues : List (String × Json) → Bool
  | [] => true
  | (_, value) :: rest => value.isWritable && haveWritableValues rest

end

/-- What is said about a value that is not written. -/
def numberNotWritten : String :=
  s!"Exceeds the limit ({maxDigits} digits) for integer string conversion; " ++
    "use sys.set_int_max_str_digits() to increase the limit"

/-- The text of a value, or why it has none. -/
def print (value : Json) : Except String String :=
  if value.isWritable then .ok value.render else .error numberNotWritten

end MethodSig.Json
