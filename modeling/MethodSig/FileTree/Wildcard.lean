/-!
# Wildcards

A name matches a wildcard character by character. An asterisk stands for any run of characters, a
question mark for any one of them, and brackets for one of a set, or, behind an exclamation mark,
for one outside it.
-/

namespace MethodSig

/-- The characters between brackets, cut at the hyphens that make ranges. The last character of a
part and the first of the next one are the ends of a range. -/
abbrev BracketParts := List (List Char)

/-- A part of a wildcard. -/
inductive WildcardPart where
  | exactly (c : Char)
  | anyone
  | run
  /-- One of the characters of a set, or one outside it. -/
  | among (inverted : Bool) (set : BracketParts)
deriving DecidableEq, Repr

namespace BracketParts

/-- Cuts a text at its hyphens. Neither a hyphen at the very beginning nor one directly behind the
end of a range makes a range; the number says how many characters are sure to belong to the
part. -/
def cut (sure : Nat) : List Char → BracketParts
  | [] => [[]]
  | c :: rest =>
    match sure with
    | 0 => if c = '-' then [] :: cut 2 rest else join c (cut 0 rest)
    | n + 1 => join c (cut n rest)
where
  /-- Puts a character in front of the first part. -/
  join (c : Char) : BracketParts → BracketParts
    | [] => [[c]]
    | part :: parts => (c :: part) :: parts

/-- A hyphen with nothing behind it belongs to the last part. -/
def closeHyphen (parts : BracketParts) : BracketParts :=
  match parts.reverse with
  | [] :: part :: before => ((part ++ ['-']) :: before).reverse
  | _ => parts

/-- Takes away the ends of ranges that run backwards, the last range first. -/
def dropEmptyRanges : BracketParts → BracketParts
  | [] => []
  | part :: rest =>
    match part.getLast?, dropEmptyRanges rest with
    | some first, (last :: more) :: parts =>
      if last < first then (part.dropLast ++ more) :: parts else part :: (last :: more) :: parts
    | _, parts => part :: parts

def contains (c : Char) : BracketParts → Bool
  | [] => false
  | part :: rest =>
    let inRange := match part.getLast?, rest.head?.bind List.head? with
      | some first, some last => first ≤ c && c ≤ last
      | _, _ => false
    part.contains c || inRange || contains c rest

/-- The part of a wildcard that brackets make, given what stands between them. -/
def wildcardPart (inside : List Char) : WildcardPart :=
  let sure := if inside.head? = some '!' then 2 else 1
  match dropEmptyRanges (closeHyphen (cut sure inside)) with
  | [['!']] => .anyone
  | ('!' :: part) :: parts => .among true (part :: parts)
  | parts => .among false parts

end BracketParts

namespace WildcardPart

/-- What stands between an opening bracket and its partner, and what follows. A closing bracket at
the very beginning, perhaps behind an exclamation mark, belongs to the set. -/
def insideBrackets? (s : List Char) : Option (List Char × List Char) :=
  let mark := if s.head? = some '!' then 1 else 0
  let sure := if (s.drop mark).head? = some ']' then mark + 1 else mark
  let inside := s.take sure ++ (s.drop sure).takeWhile (· ≠ ']')
  if inside.length < s.length then some (inside, s.drop (inside.length + 1)) else none

/-- The parts of a wildcard. A bracket without a partner stands for itself. -/
def parse (s : List Char) : List WildcardPart :=
  match s with
  | [] => []
  | '*' :: rest => .run :: parse rest
  | '?' :: rest => .anyone :: parse rest
  | '[' :: rest =>
    match insideBrackets? rest with
    | some (inside, _) =>
      BracketParts.wildcardPart inside :: parse (rest.drop (inside.length + 1))
    | none => .exactly '[' :: parse rest
  | c :: rest => .exactly c :: parse rest
termination_by s.length
decreasing_by
  all_goals simp only [List.length_drop, List.length_cons]; omega

/-- Whether a part that stands for one character stands for the given one. -/
def accepts (c : Char) : WildcardPart → Bool
  | exactly d => c = d
  | anyone => true
  | run => true
  | among inverted set => set.contains c != inverted

def matchAll : List WildcardPart → List Char → Bool
  | [], s => s.isEmpty
  | run :: parts, [] => matchAll parts []
  | run :: parts, c :: rest => matchAll parts (c :: rest) || matchAll (run :: parts) rest
  | _ :: _, [] => false
  | part :: parts, c :: rest => part.accepts c && matchAll parts rest
termination_by parts s => (parts.length, s.length)

end WildcardPart

end MethodSig
