import MethodSig.Text.Printable

/-!
# Quoted text

Messages show a piece of text between quotes, on one line and in printable characters only.
Single quotes are used, unless the text holds a single quote and no double quote.
-/

namespace MethodSig.Text

/-- A number in hexadecimal, with zeros in front up to the given number of digits. -/
def hexadecimal (digits n : Nat) : List Char :=
  let shown := Nat.toDigits 16 n
  List.replicate (digits - shown.length) '0' ++ shown

def quoteFor (s : List Char) : Char :=
  if s.contains '\'' && !s.contains '"' then '"' else '\''

def quoteChar (quote c : Char) : List Char :=
  if c = quote ∨ c = '\\' then ['\\', c]
  else if c = '\n' then ['\\', 'n']
  else if c = '\r' then ['\\', 'r']
  else if c = '\t' then ['\\', 't']
  else if isPrintable c then [c]
  else if c.toNat < 0x100 then '\\' :: 'x' :: hexadecimal 2 c.toNat
  else if c.toNat < 0x10000 then '\\' :: 'u' :: hexadecimal 4 c.toNat
  else '\\' :: 'U' :: hexadecimal 8 c.toNat

def quoted (s : String) : String :=
  let quote := quoteFor s.toList
  String.ofList (quote :: s.toList.flatMap (quoteChar quote) ++ [quote])

end MethodSig.Text
