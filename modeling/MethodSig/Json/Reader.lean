import MethodSig.Json.Value

/-!
# Reading JSON

Besides what the JSON standard allows, the words `NaN`, `Infinity` and `-Infinity` stand for
numbers. The last of several fields with one name counts. Where the text is not well formed,
reading stops and tells what was expected, and the text from there on.
-/

namespace MethodSig.Json

/-- What is wrong with a text that is not JSON. -/
inductive Problem where
  | byteOrderMark
  | value
  | propertyName
  | colon
  | comma
  | unterminatedString
  | controlCharacter
  | escape
  | unicodeEscape
  | extraData
  /-- A whole number of more digits than may be read. -/
  | tooManyDigits (count : Nat)
deriving DecidableEq, Repr

def Problem.message : Problem → String
  | .byteOrderMark => "Unexpected UTF-8 BOM (decode using utf-8-sig)"
  | .value => "Expecting value"
  | .propertyName => "Expecting property name enclosed in double quotes"
  | .colon => "Expecting ':' delimiter"
  | .comma => "Expecting ',' delimiter"
  | .unterminatedString => "Unterminated string starting at"
  | .controlCharacter => "Invalid control character at"
  | .escape => "Invalid \\escape"
  | .unicodeEscape => "Invalid \\uXXXX escape"
  | .extraData => "Extra data"
  | .tooManyDigits count =>
    s!"Exceeds the limit ({maxDigits} digits) for integer string conversion: value has {count} " ++
      "digits; use sys.set_int_max_str_digits() to increase the limit"

/-- A problem and the text from the place where it was found. -/
structure Fault where
  problem : Problem
  rest : List Char

/-- What is left of a text once something has been read off it. -/
abbrev Rest (s : List Char) := { r : List Char // r.length < s.length }

/-- A character that may stand between the parts of a value. -/
def isSpace (c : Char) : Bool :=
  c = ' ' || c = '\t' || c = '\n' || c = '\r'

def skip (s : List Char) : List Char :=
  s.dropWhile isSpace

theorem length_skip_le (s : List Char) : (skip s).length ≤ s.length :=
  (List.dropWhile_sublist isSpace).length_le

def hexDigit? (c : Char) : Option Nat :=
  if c.isDigit then some (c.toNat - '0'.toNat)
  else if 'a' ≤ c ∧ c ≤ 'f' then some (c.toNat - 'a'.toNat + 10)
  else if 'A' ≤ c ∧ c ≤ 'F' then some (c.toNat - 'A'.toNat + 10)
  else none

def hexNumber? (a b c d : Char) : Option Nat := do
  let a ← hexDigit? a
  let b ← hexDigit? b
  let c ← hexDigit? c
  let d ← hexDigit? d
  return ((a * 16 + b) * 16 + c) * 16 + d

def escaped? (c : Char) : Option Char :=
  if c = '"' ∨ c = '\\' ∨ c = '/' then some c
  else if c = 'b' then some '\x08'
  else if c = 'f' then some '\x0c'
  else if c = 'n' then some '\n'
  else if c = 'r' then some '\r'
  else if c = 't' then some '\t'
  else none

/-- Whether a number is the first half of a surrogate pair. -/
def isHighSurrogate (n : Nat) : Bool :=
  0xd800 ≤ n && n < 0xdc00

/-- Whether a number is the second half of a surrogate pair. -/
def isLowSurrogate (n : Nat) : Bool :=
  0xdc00 ≤ n && n < 0xe000

/-- The character of a code unit that stands alone; none for half a surrogate pair. -/
def loneUnit (n : Nat) : Option Char :=
  if isHighSurrogate n || isLowSurrogate n then none else some (Char.ofNat n)

def pairedUnits (high low : Nat) : Char :=
  Char.ofNat (0x10000 + (high - 0xd800) * 0x400 + (low - 0xdc00))

/-- Reads the digits of a numbered escape, whose letter is given. Two escapes that form a
surrogate pair are read together. The text must go on behind an escape. -/
def unicodeEscape (letter : Char) (s : List Char) : Except Fault (Option Char × List Char) :=
  match s with
  | a :: b :: c :: d :: rest =>
    match hexNumber? a b c d, rest with
    | none, _ => .error ⟨.unicodeEscape, letter :: s⟩
    | _, [] => .error ⟨.unicodeEscape, letter :: s⟩
    | some high, '\\' :: 'u' :: a :: b :: c :: d :: e :: rest' =>
      if isHighSurrogate high then
        match hexNumber? a b c d with
        | none => .error ⟨.unicodeEscape, rest.drop 1⟩
        | some low =>
          if isLowSurrogate low then .ok (some (pairedUnits high low), e :: rest')
          else .ok (loneUnit high, rest)
      else .ok (loneUnit high, rest)
    | some high, rest => .ok (loneUnit high, rest)
  | _ => .error ⟨.unicodeEscape, letter :: s⟩

theorem length_of_unicodeEscape {letter : Char} {s left : List Char} {c : Option Char}
    (h : unicodeEscape letter s = .ok (c, left)) : left.length ≤ s.length := by
  unfold unicodeEscape at h
  split at h
  · split at h
    · simp at h
    · simp at h
    · split at h
      · split at h
        · simp at h
        · split at h
          · simp only [Except.ok.injEq, Prod.mk.injEq] at h
            simp only [← h.2, List.length_cons]
            omega
          · simp only [Except.ok.injEq, Prod.mk.injEq] at h
            simp only [← h.2, List.length_cons]
            omega
      · simp only [Except.ok.injEq, Prod.mk.injEq] at h
        simp only [← h.2, List.length_cons]
        omega
    · simp only [Except.ok.injEq, Prod.mk.injEq] at h
      simp only [← h.2, List.length_cons]
      omega
  · simp at h

/-- Reads a string behind its opening quote. The result is absent if the string has an unpaired
surrogate. -/
def stringBody (opening : List Char) (s : List Char) :
    Except Fault (Option (List Char) × Rest s) :=
  match s with
  | [] => .error ⟨.unterminatedString, opening⟩
  | '"' :: rest => .ok (some [], ⟨rest, by simp⟩)
  | ['\\'] => .error ⟨.unterminatedString, opening⟩
  | '\\' :: 'u' :: rest =>
    match h : unicodeEscape 'u' rest with
    | .error fault => .error fault
    | .ok (c, left) =>
      have := length_of_unicodeEscape h
      match stringBody opening left with
      | .error fault => .error fault
      | .ok (text, ⟨r, hr⟩) =>
        .ok (c.bind fun c => text.map (c :: ·), ⟨r, by simp only [List.length_cons] at *; omega⟩)
  | '\\' :: c :: rest =>
    match escaped? c with
    | none => .error ⟨.escape, s⟩
    | some c =>
      match stringBody opening rest with
      | .error fault => .error fault
      | .ok (text, ⟨r, hr⟩) =>
        .ok (text.map (c :: ·), ⟨r, by simp only [List.length_cons]; omega⟩)
  | c :: rest =>
    if c.toNat < 0x20 then .error ⟨.controlCharacter, s⟩
    else
      match stringBody opening rest with
      | .error fault => .error fault
      | .ok (text, ⟨r, hr⟩) =>
        .ok (text.map (c :: ·), ⟨r, by simp only [List.length_cons]; omega⟩)
termination_by s.length

def decimal (digits : List Char) : Nat :=
  digits.foldl (fun n c => 10 * n + (c.toNat - '0'.toNat)) 0

/-- Cuts the digits before the point off a number: a single zero, or digits that do not begin with
one. -/
def wholeDigits (s : List Char) : List Char × List Char :=
  match s with
  | '0' :: rest => (['0'], rest)
  | _ => (s.takeWhile Char.isDigit, s.dropWhile Char.isDigit)

/-- Cuts a point and the digits behind it off a number, if there are any. -/
def fractionDigits (s : List Char) : List Char × List Char :=
  match s with
  | '.' :: rest =>
    if (rest.takeWhile Char.isDigit).isEmpty then ([], s)
    else (rest.takeWhile Char.isDigit, rest.dropWhile Char.isDigit)
  | _ => ([], s)

/-- Cuts an exponent off a number, if there is one. -/
def exponentPart (s : List Char) : Option Int × List Char :=
  match s with
  | c :: rest =>
    if c = 'e' ∨ c = 'E' then
      let (negative, digits) := match rest with
        | '-' :: digits => (true, digits)
        | '+' :: digits => (false, digits)
        | digits => (false, digits)
      if (digits.takeWhile Char.isDigit).isEmpty then (none, s)
      else
        let size := Int.ofNat (decimal (digits.takeWhile Char.isDigit))
        (some (if negative then -size else size), digits.dropWhile Char.isDigit)
    else (none, s)
  | [] => (none, s)

def number (s : List Char) : Except Fault (Json × List Char) :=
  let negative := s.head? = some '-'
  let (whole, afterWhole) := wholeDigits (if negative then s.drop 1 else s)
  let (fraction, afterFraction) := fractionDigits afterWhole
  let (exponent, rest) := exponentPart afterFraction
  if whole.isEmpty then .error ⟨.value, s⟩
  else if fraction.isEmpty && exponent.isNone then
    if whole.length > maxDigits then .error ⟨.tooManyDigits whole.length, s⟩
    else
      let n := Int.ofNat (decimal whole)
      .ok (.int (if negative then -n else n), rest)
  else
    let scale := exponent.getD 0 - fraction.length
    .ok (.float (.ofDecimal negative (decimal (whole ++ fraction)) scale), rest)

def literals : List (String × Json) :=
  [("null", .null), ("true", .bool true), ("false", .bool false), ("NaN", .float .nan),
    ("Infinity", .float (.infinite false)), ("-Infinity", .float (.infinite true))]

def scalar (s : List Char) : Except Fault (Json × List Char) :=
  match literals.find? fun literal => literal.1.toList.isPrefixOf s with
  | some (word, value) => .ok (value, s.drop word.length)
  | none => number s

/-- Adds a field in front of those behind it, of which one with the same name counts more. -/
def consField (name : Option (List Char)) (value : Json) (rest : List (String × Json)) :
    List (String × Json) :=
  match name with
  | none => rest
  | some name =>
    let name := String.ofList name
    (name, (rest.lookup name).getD value) :: rest.filter (·.1 ≠ name)

mutual

def readValue (s : List Char) : Except Fault (Json × Rest s) :=
  match s with
  | '"' :: rest =>
    match stringBody s rest with
    | .error fault => .error fault
    | .ok (text, ⟨r, hr⟩) =>
      .ok (match text with | some text => .string (String.ofList text) | none => .brokenString,
        ⟨r, by simp only [List.length_cons]; omega⟩)
  | '[' :: rest =>
    have := length_skip_le rest
    match h : skip rest with
    | ']' :: left =>
      .ok (.array [], ⟨left, by simp only [h, List.length_cons] at *; omega⟩)
    | inner =>
      match readItems inner with
      | .error fault => .error fault
      | .ok (items, ⟨r, hr⟩) =>
        .ok (.array items, ⟨r, by simp only [h, List.length_cons] at *; omega⟩)
  | '\x7b' :: rest =>
    have := length_skip_le rest
    match h : skip rest with
    | '\x7d' :: left =>
      .ok (.object [], ⟨left, by simp only [h, List.length_cons] at *; omega⟩)
    | inner =>
      match readFields inner with
      | .error fault => .error fault
      | .ok (fields, ⟨r, hr⟩) =>
        .ok (.object fields, ⟨r, by simp only [h, List.length_cons] at *; omega⟩)
  | s =>
    match scalar s with
    | .error fault => .error fault
    | .ok (value, r) =>
      if hr : r.length < s.length then .ok (value, ⟨r, hr⟩) else .error ⟨.value, s⟩
termination_by (s.length, 0)
decreasing_by all_goals simp only [h, List.length_cons] at *; exact Prod.Lex.left _ _ (by omega)

/-- Reads the items of an array and the closing bracket. -/
def readItems (s : List Char) : Except Fault (List Json × Rest s) :=
  match readValue s with
  | .error fault => .error fault
  | .ok (item, ⟨r, hr⟩) =>
    have := length_skip_le r
    match h : skip r with
    | ']' :: left => .ok ([item], ⟨left, by simp only [h, List.length_cons] at *; omega⟩)
    | ',' :: left =>
      have := length_skip_le left
      match readItems (skip left) with
      | .error fault => .error fault
      | .ok (items, ⟨r', hr'⟩) =>
        .ok (item :: items, ⟨r', by simp only [h, List.length_cons] at *; omega⟩)
    | left => .error ⟨.comma, left⟩
termination_by (s.length, 1)
decreasing_by
  · exact Prod.Lex.right _ (by omega)
  · simp only [h, List.length_cons] at *; exact Prod.Lex.left _ _ (by omega)

/-- Reads the fields of an object and the closing brace. -/
def readFields (s : List Char) : Except Fault (List (String × Json) × Rest s) :=
  match s with
  | '"' :: rest =>
    match stringBody s rest with
    | .error fault => .error fault
    | .ok (name, ⟨r, hr⟩) =>
      have := length_skip_le r
      match h : skip r with
      | ':' :: left =>
        have := length_skip_le left
        match readValue (skip left) with
        | .error fault => .error fault
        | .ok (value, ⟨r', hr'⟩) =>
          have := length_skip_le r'
          match h' : skip r' with
          | '\x7d' :: left' =>
            .ok (consField name value [],
              ⟨left', by simp only [h, h', List.length_cons] at *; omega⟩)
          | ',' :: left' =>
            have := length_skip_le left'
            match readFields (skip left') with
            | .error fault => .error fault
            | .ok (fields, ⟨r'', hr''⟩) =>
              .ok (consField name value fields,
                ⟨r'', by simp only [h, h', List.length_cons] at *; omega⟩)
          | left' => .error ⟨.comma, left'⟩
      | left => .error ⟨.colon, left⟩
  | s => .error ⟨.propertyName, s⟩
termination_by (s.length, 1)
decreasing_by
  · simp only [h, List.length_cons] at *; exact Prod.Lex.left _ _ (by omega)
  · simp only [h, h', List.length_cons] at *; exact Prod.Lex.left _ _ (by omega)

end

def parseChars (s : List Char) : Except Fault Json :=
  match s with
  | '\ufeff' :: _ => .error ⟨.byteOrderMark, s⟩
  | _ =>
    match readValue (skip s) with
    | .error fault => .error fault
    | .ok (value, ⟨r, _⟩) =>
      if (skip r).isEmpty then .ok value else .error ⟨.extraData, skip r⟩

/-- Why a text is not JSON, and where. Lines and columns count from one. -/
structure SyntaxFault where
  problem : Problem
  line : Nat
  column : Nat
deriving DecidableEq, Repr

def Fault.locate (text : List Char) (fault : Fault) : SyntaxFault :=
  let before := text.take (text.length - fault.rest.length)
  ⟨fault.problem, before.count '\n' + 1, (before.reverse.takeWhile (· ≠ '\n')).length + 1⟩

def parse (text : String) : Except SyntaxFault Json :=
  (parseChars text.toList).mapError (Fault.locate text.toList)

end MethodSig.Json
