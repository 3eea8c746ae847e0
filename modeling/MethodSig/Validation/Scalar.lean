import MethodSig.Json.Reader
import MethodSig.Text.Blank
import MethodSig.Type.Descriptor
import MethodSig.Validation.Fault

/-!
# Checking scalars

Texts are taken only as texts. Whole numbers may also be given as numbers without a fraction, as
truth values and as numerals; truth values also as zero, one and a few words.
-/

namespace MethodSig.Validation

def text : Json → Checked String
  | .string s => .valid s
  | .brokenString => .fault .brokenText
  | _ => .fault .notText

def oneOf (code : String) (options : List String) : Json → Checked String
  | .string s => if options.contains s then .valid s else .fault (.notAmong code options)
  | _ => .fault (.notAmong code options)

def kindNames : List (String × Kind) :=
  [("PRIMITIVE", .primitive), ("CLASS", .declared), ("ARRAY", .array)]

def kind (value : Json) : Checked Kind :=
  (oneOf "enum" (kindNames.map Prod.fst) value).andThen fun name =>
    .valid ((kindNames.lookup name).getD .primitive)

/-- Removes zeros, and underscores between them, in front of a numeral. The zero before a point
stays, and so does the last of nothing but zeros. A text that begins with neither a digit nor a
minus sign is no numeral. -/
def dropLeadingZeros? (s : List Char) : Option (List Char) :=
  match s with
  | '0' :: rest =>
    match rest.dropWhile (fun c => c = '0' || c = '_') with
    | [] => some [s.getLast?.getD '0']
    | '.' :: after =>
      let before := '0' :: rest.takeWhile (fun c => c = '0' || c = '_')
      some (before.getLast?.getD '0' :: '.' :: after)
    | c :: after => if c.isDigit then some (c :: after) else none
  | '-' :: _ => some s
  | c :: _ => if c.isDigit then some s else none
  | [] => none

/-- Removes a point and the zeros behind it from the end of a numeral. -/
def dropZeroFraction (s : List Char) : List Char :=
  match s.dropWhile (· ≠ '.') with
  | '.' :: zeros => if zeros.all (· = '0') then s.takeWhile (· ≠ '.') else s
  | _ => s

def hasDoubleUnderscore : List Char → Bool
  | '_' :: '_' :: _ => true
  | _ :: rest => hasDoubleUnderscore rest
  | [] => false

def dropUnderscores (s : List Char) : List Char :=
  if s.head? = some '_' || s.getLast? = some '_' || hasDoubleUnderscore s then s
  else s.filter (· ≠ '_')

/-- The number that a bare numeral stands for: a zero, or digits that do not begin with one, and
perhaps a minus sign in front. -/
def bareInteger? (s : List Char) : Option Int :=
  let negative := s.head? = some '-'
  let digits := if negative then s.drop 1 else s
  let canonical := digits = ['0'] ||
    (digits.head? ≠ some '0' && !digits.isEmpty && digits.all Char.isDigit)
  if canonical then
    let n := Int.ofNat (Json.decimal digits)
    some (if negative then -n else n)
  else none

/-- The numeral within a text: without space around it, a plus sign or zeros in front of it, a
fraction of zeros, or underscores between its digits. -/
def numeral? (s : List Char) : Option (List Char) := do
  let trimmed := ((s.dropWhile Text.isWhiteSpace).reverse.dropWhile Text.isWhiteSpace).reverse
  let unsigned ← match trimmed with
    | '+' :: '-' :: _ => none
    | '+' :: rest => some rest
    | rest => some rest
  let stripped ← dropLeadingZeros? unsigned
  return dropUnderscores (dropZeroFraction stripped)

def integerText (s : List Char) : Checked Int :=
  if (bareInteger? s).isSome && s.length > Json.maxDigits then .fault .integerTooLarge
  else match (numeral? s).filter (·.length ≤ Json.maxDigits) >>= bareInteger? with
    | some n => .valid n
    | none => .fault .notIntegerText

def integerFloat (x : Binary64) : Checked Int :=
  if !x.isFinite then .fault .notFinite
  else match x.toInt? with
    | none => .fault .fractional
    | some n => if n.natAbs < Nat.pow 2 63 then .valid n else .fault .integerTooLarge

def integer : Json → Checked Int
  | .int n => .valid n
  | .bool b => .valid (if b then 1 else 0)
  | .float x => integerFloat x
  | .string s => integerText s.toList
  | .brokenString => .fault .brokenText
  | _ => .fault .notInteger

def natural (value : Json) : Checked Nat :=
  (integer value).andThen fun n => if n < 0 then .fault .negative else .valid n.toNat

def truthWords : List (String × Bool) :=
  [("0", false), ("f", false), ("n", false), ("no", false), ("off", false), ("false", false),
    ("1", true), ("t", true), ("y", true), ("on", true), ("yes", true), ("true", true)]

/-- A truth value given as a number: zero or one. Numbers too large for a machine word are not
looked at. -/
def truthNumber (n : Int) : Checked Bool :=
  if n = 0 then .valid false
  else if n = 1 then .valid true
  else if -Int.ofNat (Nat.pow 2 63) ≤ n ∧ n < Int.ofNat (Nat.pow 2 63) then .fault .notBooleanText
  else .fault .notBoolean

def boolean : Json → Checked Bool
  | .bool b => .valid b
  | .int n => truthNumber n
  | .float x =>
    match integerFloat x with
    | .valid n => truthNumber n
    | .invalid _ => .fault .notBoolean
  | .string s =>
    match truthWords.lookup (s.map Char.toLower) with
    | some b => .valid b
    | none => .fault .notBooleanText
  | .brokenString => .fault .brokenText
  | _ => .fault .notBoolean

end MethodSig.Validation
