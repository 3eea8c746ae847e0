import MethodSig.Text.Blank

/-!
# Markup

Text for a terminal may hold style tags in square brackets. A tag begins with a small letter, a
number sign, a slash or an at sign, and holds no further opening bracket. A tag that begins with
a slash ends the style that it names, or the last style if it names none; every other tag begins a
style. A backslash in front of a tag makes it plain text. On a terminal without styles the tags
just disappear.
-/

namespace MethodSig.Markup

/-- A part of a text with markup. -/
inductive Piece where
  | plain (text : List Char)
  | tag (inner : List Char)
deriving DecidableEq, Repr

/-- A tag that ends a style which was not begun. -/
structure UnopenedStyle where
  /-- The name of the style; empty if the tag names none. -/
  name : List Char
deriving DecidableEq, Repr

def startsTag (c : Char) : Bool :=
  c.isLower || c == '#' || c == '/' || c == '@'

/-- The text up to a closing bracket, and what follows the bracket. There is none if an opening
bracket comes first. -/
def untilClosing? : List Char → Option (List Char × List Char)
  | [] => none
  | ']' :: rest => some ([], rest)
  | '[' :: _ => none
  | c :: rest => (untilClosing? rest).map fun (inner, after) => (c :: inner, after)

/-- What stands between the brackets of the tag that a text begins with, and what follows it. -/
def tag? : List Char → Option (List Char × List Char)
  | '[' :: c :: rest =>
    if startsTag c then (untilClosing? rest).map fun (inner, after) => (c :: inner, after)
    else none
  | _ => none

theorem length_lt_of_untilClosing? {s inner after : List Char}
    (h : untilClosing? s = some (inner, after)) : after.length < s.length := by
  fun_induction untilClosing? s generalizing inner with
  | case1 => simp at h
  | case2 rest => simp_all
  | case3 => simp at h
  | case4 c rest _ _ ih =>
    obtain ⟨⟨i, a⟩, hia, heq⟩ := Option.map_eq_some_iff.mp h
    cases heq
    exact Nat.lt_succ_of_lt (ih hia)

theorem length_lt_of_tag? {s inner after : List Char} (h : tag? s = some (inner, after)) :
    after.length < s.length := by
  unfold tag? at h
  split at h
  · split at h
    · obtain ⟨⟨i, a⟩, hia, heq⟩ := Option.map_eq_some_iff.mp h
      cases heq
      have hlt := length_lt_of_untilClosing? hia
      simp only [List.length_cons]
      omega
    · simp at h
  · simp at h

/-- A tag after some backslashes. Each pair of them stands for one backslash, and one that is left
over makes the tag plain text. -/
def afterBackslashes (count : Nat) (inner : List Char) : List Piece :=
  [.plain (List.replicate (count / 2) '\\'),
    if count % 2 = 1 then .plain ('[' :: inner ++ [']']) else .tag inner]

/-- The parts of a text with markup. A backslash in front of an opening bracket that begins no tag
disappears. -/
def pieces (s : List Char) : List Piece :=
  match s with
  | [] => []
  | c :: rest =>
    match h : tag? ((c :: rest).dropWhile (· == '\\')) with
    | some (inner, after) =>
      have := Nat.lt_of_lt_of_le (length_lt_of_tag? h) (List.dropWhile_sublist _).length_le
      afterBackslashes ((c :: rest).takeWhile (· == '\\')).length inner ++ pieces after
    | none =>
      if c == '\\' && rest.head? == some '[' then pieces rest else .plain [c] :: pieces rest
termination_by s.length
decreasing_by
  · assumption
  · exact Nat.lt_succ_self _
  · exact Nat.lt_succ_self _

def styleName (s : List Char) : List Char :=
  (Text.strip s).map Char.toLower

/-- The shown text of some parts, given the styles that are open, the last one first. -/
def shown (opened : List (List Char)) : List Piece → Except UnopenedStyle (List Char)
  | [] => .ok []
  | .plain text :: rest => (shown opened rest).map (text ++ ·)
  | .tag inner :: rest =>
    match inner.takeWhile (· != '=') with
    | '/' :: name =>
      let name := styleName name
      if name.isEmpty then
        match opened with
        | _ :: others => shown others rest
        | [] => .error ⟨name⟩
      else if opened.contains name then shown (opened.erase name) rest
      else .error ⟨name⟩
    | name => shown (styleName name :: opened) rest

def render (s : List Char) : Except UnopenedStyle (List Char) :=
  shown [] (pieces s)

end MethodSig.Markup
