import MethodSig.Method.Basic

/-!
# Consistency of argument types

Within a batch every argument name has one type.
-/

namespace MethodSig

/-- Two arguments of one name and different types. -/
structure ArgumentConflict where
  name : String
  first : Descriptor
  second : Descriptor
deriving DecidableEq

/-- Looks for the first argument that differs in type from the first argument of its name, given
the types that are known so far. -/
def firstConflict? (known : List (String × Descriptor)) :
    List Argument → Option ArgumentConflict
  | [] => none
  | a :: rest =>
    match known.lookup a.name with
    | none => firstConflict? ((a.name, a.type) :: known) rest
    | some type =>
      if type = a.type then firstConflict? known rest else some ⟨a.name, type, a.type⟩

/-- Checks that no argument name has two types in the batch. -/
def checkConsistency (methods : List Method) : Except ArgumentConflict Unit :=
  match firstConflict? [] (methods.flatMap Method.arguments) with
  | none => .ok ()
  | some conflict => .error conflict

end MethodSig
