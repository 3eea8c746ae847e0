import MethodSig.Text.Utf8

/-!
# Tokens of a source text

A source is cut into words, literals, comments and single symbols; white space separates them.
Comments and literals may hold any bytes, so that tokens are kept as bytes, each as the character
of its number.
-/

namespace MethodSig.Source

/-- What a token is. -/
inductive TokenKind where
  | word
  | literal
  | lineComment
  | blockComment
  | symbol
deriving DecidableEq, Repr

/-- A token and where it stands. -/
structure Token where
  kind : TokenKind
  bytes : List Char
  start : Nat
deriving DecidableEq, Repr

def Token.stop (t : Token) : Nat :=
  t.start + t.bytes.length

def Token.text (t : Token) : String :=
  String.ofList t.bytes

def Token.isComment (t : Token) : Bool :=
  t.kind = .lineComment || t.kind = .blockComment

def asChars (bytes : List UInt8) : List Char :=
  bytes.map fun b => Char.ofNat b.toNat

/-- The white space characters beyond the first half of the byte range. -/
def wideSpaces : List Char :=
  [0x85, 0xa0, 0x1680, 0x2000, 0x2001, 0x2002, 0x2003, 0x2004, 0x2005, 0x2006, 0x2007, 0x2008,
    0x2009, 0x200a, 0x2028, 0x2029, 0x202f, 0x205f, 0x3000].map Char.ofNat

def wideSpaceBytes : List (List Char) :=
  wideSpaces.map fun c => asChars (Text.Utf8.encode (String.ofList [c]))

/-- The length of the white space that a text begins with, in one character; zero if it begins
with something else. -/
def spaceLength : List Char → Nat
  | [] => 0
  | c :: rest =>
    if c = ' ' || (9 ≤ c.toNat && c.toNat ≤ 13) then 1
    else if c.toNat < 0x80 then 0
    else ((wideSpaceBytes.find? (·.isPrefixOf (c :: rest))).map List.length).getD 0

def isWordByte (c : Char) : Bool :=
  c.isAlphanum || c = '_' || c = '$' || c.toNat ≥ 0x80

def wordLength : List Char → Nat
  | [] => 0
  | c :: rest => if isWordByte c && spaceLength (c :: rest) = 0 then 1 + wordLength rest else 0

/-- The length of a text up to and with the first closing mark, or to its end. -/
def lengthThrough (closing : List Char) : List Char → Nat
  | [] => 0
  | c :: rest =>
    if closing.isPrefixOf (c :: rest) then closing.length else 1 + lengthThrough closing rest

/-- The length of a text up to and with the first closing mark that does not follow a backslash,
or to its end. -/
def lengthThroughQuote (closing : List Char) : List Char → Nat
  | [] => 0
  | '\\' :: _ :: rest => 2 + lengthThroughQuote closing rest
  | c :: rest =>
    if closing.isPrefixOf (c :: rest) then closing.length
    else 1 + lengthThroughQuote closing rest

/-- The kind and the length of the token that a text begins with; no kind for white space. -/
def lexeme (s : List Char) : Option TokenKind × Nat :=
  if 0 < spaceLength s then (none, spaceLength s)
  else match s with
    | '/' :: '/' :: rest => (some .lineComment, 2 + (rest.takeWhile (· ≠ '\n')).length)
    | '/' :: '*' :: rest => (some .blockComment, 2 + lengthThrough ['*', '/'] rest)
    | '"' :: '"' :: '"' :: rest => (some .literal, 3 + lengthThroughQuote ['"', '"', '"'] rest)
    | '"' :: rest => (some .literal, 1 + lengthThroughQuote ['"'] rest)
    | '\'' :: rest => (some .literal, 1 + lengthThroughQuote ['\''] rest)
    | _ => if 0 < wordLength s then (some .word, wordLength s) else (some .symbol, 1)

/-- The tokens of a text whose first byte has the given position. -/
def tokensFrom (start : Nat) (s : List Char) : List Token :=
  match s with
  | [] => []
  | c :: rest =>
    let (kind, length) := lexeme (c :: rest)
    let bytes := c :: rest.take (length - 1)
    let others := tokensFrom (start + bytes.length) (rest.drop (length - 1))
    match kind with
    | some kind => ⟨kind, bytes, start⟩ :: others
    | none => others
termination_by s.length
decreasing_by
  simp only [List.length_drop, List.length_cons]
  omega

def byteOrderMark : List Char :=
  asChars (Text.Utf8.encode "\ufeff")

/-- The tokens of a source, comments among them. -/
def tokens (source : List UInt8) : List Token :=
  let text := asChars source
  let skipped := if byteOrderMark.isPrefixOf text then byteOrderMark.length else 0
  tokensFrom skipped (text.drop skipped)

end MethodSig.Source
