import MethodSig.Signature.Identifier
import MethodSig.Signature.Malformed
import MethodSig.Text.Blank

/-!
# Argument lists

An argument is a type text and a name: a run of characters that are not blank, some blanks, and
an identifier. A comma ends an argument, and so does the end of the list; the comma after the
last argument may be left out.
-/

namespace MethodSig.Signature

open Text

/-- A character that may stand in the name position of an argument. -/
def insideName (c : Char) : Bool :=
  !isBlank c && c ≠ ','

/-- The text after the comma that ends an argument, blanks before the comma skipped, or the empty
text at the end of the list. -/
def afterComma? (s : List Char) : Option (List Char) :=
  match s.dropWhile isBlank with
  | [] => some []
  | ',' :: rest => some rest
  | _ => none

/-- Cuts the first argument off a list: its type text, its name, and the text after its comma. -/
def cutArgument? (s : List Char) : Option ((List Char × List Char) × List Char) :=
  let text := s.dropWhile isBlank
  let type := text.takeWhile (!isBlank ·)
  let gap := text.dropWhile (!isBlank ·)
  let named := gap.dropWhile isBlank
  let name := named.takeWhile insideName
  if type.isEmpty || gap.isEmpty || name.isEmpty then none
  else (afterComma? (named.dropWhile insideName)).map ((type, name), ·)

theorem length_of_afterComma? {s rest : List Char} (h : afterComma? s = some rest) :
    rest.length ≤ s.length := by
  have hs := (List.dropWhile_sublist (l := s) isBlank).length_le
  unfold afterComma? at h
  split at h
  next => simp_all
  next r heq =>
    rw [heq, List.length_cons] at hs
    simp only [Option.some.injEq] at h
    subst h
    omega
  next => simp at h

theorem length_of_cutArgument? {s rest : List Char} {argument : List Char × List Char}
    (h : cutArgument? s = some (argument, rest)) : rest.length < s.length := by
  simp only [cutArgument?] at h
  split at h
  next => simp at h
  next hne =>
    simp only [Option.map_eq_some_iff, Prod.mk.injEq] at h
    obtain ⟨left, hleft, -, rfl⟩ := h
    have hrest := length_of_afterComma? hleft
    generalize hname : ((s.dropWhile isBlank).dropWhile (!isBlank ·)).dropWhile isBlank = named
      at hrest hne
    have h1 := (List.dropWhile_sublist (l := s) isBlank).length_le
    have h2 := (List.dropWhile_sublist (l := s.dropWhile isBlank) (!isBlank ·)).length_le
    have h3 := (List.dropWhile_sublist
      (l := (s.dropWhile isBlank).dropWhile (!isBlank ·)) isBlank).length_le
    rw [hname] at h3
    have h4 : 0 < (named.takeWhile insideName).length := by
      rw [List.length_pos_iff]
      intro h
      simp [h] at hne
    have h5 := congrArg List.length (List.takeWhile_append_dropWhile (p := insideName) (l := named))
    rw [List.length_append] at h5
    omega

/-- Reads the arguments of a list, or names the first place where it goes wrong. -/
def readArguments (s : List Char) : Except Flaw (List (String × String)) :=
  if s.isEmpty then .ok []
  else
    match h : cutArgument? s with
    | none => .error (.argumentText (String.ofList s))
    | some ((type, name), rest) =>
      have := length_of_cutArgument? h
      if isIdentifier name then
        (readArguments rest).map ((String.ofList type, String.ofList name) :: ·)
      else .error (.argumentName (String.ofList name))
termination_by s.length

/-- Splits the text of an argument list into type texts and names. A flaw is reported against
the given signature, or against the list itself if that is empty. -/
def tokenizeArguments (text signature : String) : Except Malformed (List (String × String)) :=
  let list := strip text.toList
  let blamed := if signature.isEmpty then String.ofList list else signature
  (readArguments list).mapError fun flaw => ⟨blamed, some flaw⟩

end MethodSig.Signature
