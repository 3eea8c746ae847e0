/-!
# Qualified names

The segments of a qualified name are separated by dots.
-/

namespace MethodSig.QualifiedName

/-- The text before the last dot, if there is a dot. -/
def parent? (name : List Char) : Option (List Char) :=
  match name.reverse.dropWhile (· ≠ '.') with
  | [] => none
  | _ :: before => some before.reverse

theorem length_of_parent? {name parent : List Char} (h : parent? name = some parent) :
    parent.length < name.length := by
  unfold parent? at h
  split at h
  next => simp at h
  next c before heq =>
    have hs := (List.dropWhile_sublist (l := name.reverse) (· ≠ '.')).length_le
    rw [heq, List.length_cons, List.length_reverse] at hs
    simp only [Option.some.injEq] at h
    simp only [← h, List.length_reverse]
    omega

/-- The package part of a qualified type name; empty for a name without a dot. -/
def package (name : String) : String :=
  String.ofList ((parent? name.toList).getD [])

/-- A name inside a package or type. The empty text stands for the unnamed package. -/
def inside (outer name : String) : String :=
  if outer.isEmpty then name else outer ++ "." ++ name

/-- The first segment of a name and the text behind the dot after it. -/
def splitHead (name : String) : String × String :=
  (String.ofList (name.toList.takeWhile (· ≠ '.')),
    String.ofList ((name.toList.dropWhile (· ≠ '.')).drop 1))

/-- A name whose nested types may be set apart by dollar signs, written with dots. -/
def dotted (name : String) : String :=
  String.ofList (name.toList.map fun c => if c = '$' then '.' else c)

end MethodSig.QualifiedName
