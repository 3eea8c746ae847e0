import MethodSig.Text.Blank
import MethodSig.Text.Width

/-!
# Wrapping

Text is broken into lines that fit into a number of columns. Lines are broken in front of words. A
word that is wider than a whole line is either broken itself or cut short with an ellipsis.
-/

namespace MethodSig.Wrap

open Text

/-- What becomes of a word that is wider than a line. -/
inductive Overflow where
  | fold
  | ellipsis
deriving DecidableEq, Repr

def trimEnd (s : List Char) : List Char :=
  (s.reverse.dropWhile isBlank).reverse

/-- A control that a terminal would act on instead of showing it. -/
def isTerminalControl (c : Char) : Bool :=
  c.toNat == 0x7 || c.toNat == 0x8 || (0xb ≤ c.toNat && c.toNat ≤ 0xd)

def tabStop : Nat := 8

/-- The text with blanks up to the next tab stop in the place of tabs, given the column that it
begins in. -/
def expandTabs (column : Nat) : List Char → List Char
  | [] => []
  | '\t' :: rest =>
    let blanks := tabStop - column % tabStop
    List.replicate blanks ' ' ++ expandTabs (column + blanks) rest
  | c :: rest => c :: expandTabs (column + charWidth c) rest

def splitLines : List Char → List (List Char)
  | [] => [[]]
  | '\n' :: rest => [] :: splitLines rest
  | c :: rest =>
    match splitLines rest with
    | [] => [[c]]
    | line :: others => (c :: line) :: others

/-- A line cut in front of each word, so that the blanks after a word stay with it. -/
def cutAtWords : List Char → List (List Char)
  | [] => []
  | c :: rest =>
    match cutAtWords rest with
    | [] => [[c]]
    | word :: others =>
      if isBlank c && !(word.head?.any isBlank) then [c] :: word :: others
      else (c :: word) :: others

/-- The words of a line, each with the blanks after it, and the first also with those before
it. -/
def spacedWords (s : List Char) : List (List Char) :=
  match cutAtWords s with
  | first :: second :: others =>
    if first.all isBlank then (first ++ second) :: others else first :: second :: others
  | words => words

/-- A word cut into pieces that fit, given the piece that is being filled. -/
def chop (columns : Nat) (piece : List Char) : List Char → List (List Char)
  | [] => [piece]
  | c :: rest =>
    if width piece + charWidth c ≤ columns then chop columns (piece ++ [c]) rest
    else piece :: chop columns [c] rest

/-- The lines that begin with a line of text, unless there is none on it. -/
def startWith (line : List Char) (lines : List (List Char)) : List (List Char) :=
  if line.isEmpty then lines else line :: lines

/-- The lines of some words, given the line that is being filled. -/
def fill (columns : Nat) (overflow : Overflow) (line : List Char) :
    List (List Char) → List (List Char)
  | [] => [line]
  | word :: rest =>
    let needed := width (trimEnd word)
    if width line + needed ≤ columns then fill columns overflow (line ++ word) rest
    else if columns < needed ∧ overflow = .fold then
      let pieces := chop columns [] word
      startWith line (pieces.dropLast ++ fill columns overflow (pieces.getLastD []) rest)
    else startWith line (fill columns overflow word rest)

/-- The beginning of a text that takes at most the given columns. -/
def take (columns : Nat) : List Char → List Char
  | [] => []
  | c :: rest => if charWidth c ≤ columns then c :: take (columns - charWidth c) rest else []

def padEnd (columns : Nat) (s : List Char) : List Char :=
  s ++ List.replicate (columns - width s) ' '

/-- A line without those blanks at its end that are more characters than there are columns. -/
def trimExcess (columns : Nat) (line : List Char) : List Char :=
  let blanks := line.length - (trimEnd line).length
  line.take (line.length - min blanks (line.length - columns))

/-- A line cut so that it fits, with an ellipsis in the place of what does not if words are cut
short. -/
def shorten (columns : Nat) (overflow : Overflow) (line : List Char) : List Char :=
  if width line ≤ columns then line
  else match overflow with
    | .fold => padEnd columns (take columns line)
    | .ellipsis => padEnd (columns - 1) (take (columns - 1) line) ++ ['…']

/-- The lines of a text that fit into the given columns. -/
def lines (columns : Nat) (overflow : Overflow) (s : List Char) : List (List Char) :=
  (splitLines (s.filter (!isTerminalControl ·))).flatMap fun line =>
    (fill columns overflow [] (spacedWords (expandTabs 0 line))).map fun line =>
      shorten columns overflow (trimExcess columns line)

end MethodSig.Wrap
