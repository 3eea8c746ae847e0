import MethodSig.Source.Token

/-!
# Bracketed phrases

Between tokens and syntax trees, brackets are matched: what stands between a bracket and its
partner is one group, whatever it holds.
-/

namespace MethodSig.Source

/-- A token, or all that stands between two brackets. -/
inductive Phrase where
  | token (t : Token)
  /-- The phrases between an opening bracket and the position after its partner. -/
  | group (opening : Token) (inside : List Phrase) (stop : Nat)

namespace Phrase

def start : Phrase → Nat
  | token t => t.start
  | group opening _ _ => opening.start

def stop : Phrase → Nat
  | token t => t.stop
  | group _ _ stop => stop

def isWord : Phrase → Bool
  | token t => t.kind = .word
  | group .. => false

/-- The text of a phrase that is a word, and otherwise nothing. -/
def word : Phrase → String
  | token t => if t.kind = .word then t.text else ""
  | group .. => ""

def isSymbol (c : Char) : Phrase → Bool
  | token t => t.kind = .symbol && t.bytes = [c]
  | group .. => false

/-- Whether a phrase is a group with the given opening bracket. -/
def isGroup (c : Char) : Phrase → Bool
  | token _ => false
  | group opening _ _ => opening.bytes = [c]

end Phrase

/-- Groups that are still open. -/
structure Grouping where
  /-- The phrases since the last opening bracket, latest first. -/
  current : List Phrase
  /-- The opening brackets and the phrases in front of each, innermost first. -/
  around : List (Token × List Phrase)

namespace Grouping

def next (g : Grouping) (t : Token) : Grouping :=
  if t.kind ≠ .symbol then { g with current := .token t :: g.current }
  else if "([\x7b".toList.any (t.bytes = [·]) then ⟨[], (t, g.current) :: g.around⟩
  else if ")]\x7d".toList.any (t.bytes = [·]) then
    match g.around with
    | (opening, before) :: around =>
      ⟨.group opening g.current.reverse t.stop :: before, around⟩
    | [] => ⟨.token t :: g.current, []⟩
  else { g with current := .token t :: g.current }

def finish (current : List Phrase) : List (Token × List Phrase) → List Phrase
  | [] => current.reverse
  | (opening, before) :: around =>
    let stop := (current.head?.map Phrase.stop).getD opening.stop
    finish (.group opening current.reverse stop :: before) around

end Grouping

def phrases (tokens : List Token) : List Phrase :=
  let g := tokens.foldl Grouping.next ⟨[], []⟩
  Grouping.finish g.current g.around

end MethodSig.Source
