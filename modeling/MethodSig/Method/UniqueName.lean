import MethodSig.Method.Order
import MethodSig.Text.Uppercase

/-!
# Unique names

The first method with a given upper-cased name gets that name. Later ones get it with a number
behind an underscore, counted up and passing over every number that would make the upper-cased
name of a method of the batch, or a name that is already in use.
-/

namespace MethodSig.UniqueName

def numbered (base : String) (n : Nat) : String :=
  base ++ "_" ++ toString n

/-- The least number from `n` on whose numbered name is not among the taken ones. -/
def firstFree (base : String) (taken : List String) (n : Nat) : Nat :=
  if h : numbered base n ∈ taken then
    have := List.length_erase_of_mem h
    have := List.length_pos_of_mem h
    firstFree base (taken.erase (numbered base n)) (n + 1)
  else n
termination_by taken.length

/-- What naming has done so far. -/
structure Naming where
  /-- For each base name that has occurred, the number to try next. -/
  counts : List (String × Nat)
  used : List String

/-- Names one more method of the given base name, beside methods of the given base names. -/
def Naming.next (bases : List String) (state : Naming) (base : String) : String × Naming :=
  let count := state.counts.lookup base
  if count.isNone && !state.used.contains base then
    (base, ⟨(base, 1) :: state.counts, base :: state.used⟩)
  else
    let n := firstFree base (state.used ++ bases) (count.getD 1)
    let name := numbered base n
    (name, ⟨(base, n + 1) :: state.counts, name :: state.used⟩)

def assignFrom (bases : List String) (state : Naming) : List String → List String
  | [] => []
  | base :: rest =>
    let (name, state) := state.next bases base
    name :: assignFrom bases state rest

/-- The unique names of methods of the given base names, in order. -/
def assign (bases : List String) : List String :=
  assignFrom bases ⟨[], []⟩ bases

end MethodSig.UniqueName

namespace MethodSig.Method

def baseName (m : Method) : String :=
  Text.upper m.name

/-- Gives every method of a batch its unique name, in the order in which they stand. -/
def assignUniqueNames (methods : List Method) : List Method :=
  methods.zipWith (fun m name => { m with uniqueName := some name })
    (UniqueName.assign (methods.map baseName))

/-- Sorts a batch and gives every method its unique name. -/
def canonicalize (policy : DuplicatePolicy) (methods : List Method) :
    Logged (Except (Method × Method) (List Method)) :=
  (Except.map assignUniqueNames) <$> sort policy methods

end MethodSig.Method
