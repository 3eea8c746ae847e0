import MethodSig.Catalog.Core
import MethodSig.Catalog.Scope
import MethodSig.Method.Basic

/-!
# Binding to members

A member is looked for in the target type and then in its supertypes, breadth first, each type
once. A class that does not lead to the root class by its declared supertypes is followed by it.
-/

namespace MethodSig.Catalog

/-- Resolves the supertypes of a declaration in its own scope, to classes and interfaces only. -/
def supertypes (c : Catalog) (namespaceName : String) (d : TypeDecl) : Logged (List String) := do
  let resolved ← d.supertypes.mapM fun text => do
    match ← (c.scope namespaceName d).resolve? text with
    | some ⟨.declared, name, _, _⟩ => return some name
    | _ =>
      Logged.tell (.skippedSupertype text d.qualifiedName)
      return none
  return resolved.reduceOption

/-- A type that the search comes by, with the log entries of going on to its supertypes. -/
structure Visit where
  decl : TypeDecl
  /-- The entries left by resolving its supertypes. -/
  onward : List Event

theorem length_supertypes_le (c : Catalog) (namespaceName : String) (d : TypeDecl) :
    (c.supertypes namespaceName d).value.length ≤ d.supertypes.length := by
  simp only [supertypes, Logged.value_bind, Logged.value_mapM, Logged.value_pure]
  exact Nat.le_trans (List.length_filterMap_le _ _) (Nat.le_of_eq (List.length_map _))

/-- How many steps the types that are not seen yet may still cause: one for each of them and one
for each of their supertypes. -/
def unseenSteps (types : List TypeDecl) (seen : List String) : Nat :=
  match types with
  | [] => 0
  | d :: rest =>
    unseenSteps rest seen + if seen.contains d.qualifiedName then 0 else d.supertypes.length + 1

theorem unseenSteps_cons_le (types : List TypeDecl) (seen : List String) (name : String) :
    unseenSteps types (name :: seen) ≤ unseenSteps types seen := by
  induction types with
  | nil => exact Nat.le_refl 0
  | cons d rest ih =>
    simp only [unseenSteps, List.contains_cons]
    cases d.qualifiedName == name <;> simp <;> omega

theorem unseenSteps_cons_add_le {types : List TypeDecl} {seen : List String} {d : TypeDecl}
    (hd : d ∈ types) (hseen : ¬ seen.contains d.qualifiedName) :
    unseenSteps types (d.qualifiedName :: seen) + (d.supertypes.length + 1) ≤
      unseenSteps types seen := by
  induction types with
  | nil => simp at hd
  | cons e rest ih =>
    rw [unseenSteps, unseenSteps]
    rcases List.mem_cons.1 hd with rfl | hrest
    · have := unseenSteps_cons_le rest seen d.qualifiedName
      rw [if_neg hseen, if_pos (by simp)]
      omega
    · have := ih hrest
      rw [List.contains_cons]
      cases e.qualifiedName == d.qualifiedName <;> simp <;> omega

/-- The types reached from the pending names, breadth first and each once. -/
def visitsFrom (c : Catalog) (namespaceName : String) (pending seen : List String) : List Visit :=
  match pending with
  | [] => []
  | name :: rest =>
    if hseen : seen.contains name then c.visitsFrom namespaceName rest seen
    else match hget : c.get? name with
      | none => c.visitsFrom namespaceName rest seen
      | some d =>
        let onward := c.supertypes namespaceName d
        have := length_supertypes_le c namespaceName d
        have : unseenSteps c.types (name :: seen) + (d.supertypes.length + 1) ≤
            unseenSteps c.types seen := by
          obtain ⟨hd, rfl⟩ := mem_types_of_get? hget
          exact unseenSteps_cons_add_le hd hseen
        ⟨d, onward.log⟩ :: c.visitsFrom namespaceName (rest ++ onward.value) (name :: seen)
termination_by unseenSteps c.types seen + pending.length
decreasing_by
  · simp
  · simp
  · simp only [List.length_append, List.length_cons]
    omega

/-- The types in which a member of the named type is looked for, in order. -/
def visits (c : Catalog) (namespaceName name : String) : List Visit :=
  let declared := c.visitsFrom namespaceName [name] []
  let isClass := (c.get? name).any (!·.isInterface)
  let leadsToRoot := declared.any (·.decl.qualifiedName = objectType)
  match c.get? objectType with
  | some root => if isClass && !leadsToRoot then declared ++ [⟨root, []⟩] else declared
  | none => declared

/-- Whether a method has the given name and, resolved in its own scope, the given parameter
types. -/
def matchesMethod (scope : Resolver) (d : TypeDecl) (name : String) (types : List Descriptor)
    (m : MethodDecl) : Logged Bool :=
  if m.name = name ∧ m.parameterTypes.length = types.length ∧ d.isAccessible m then do
    let declared ← m.parameterTypes.mapM scope.resolve?
    return declared = types.map some
  else pure false

def firstMatch (scope : Resolver) (d : TypeDecl) (name : String) (types : List Descriptor) :
    List MethodDecl → Logged (Option MethodDecl)
  | [] => pure none
  | m :: rest => do
    if ← matchesMethod scope d name types m then return some m
    else firstMatch scope d name types rest

/-- The first matching method of the types that a search comes by. -/
def firstMember (c : Catalog) (namespaceName name : String) (types : List Descriptor) :
    List Visit → Logged (Option Member)
  | [] => pure none
  | visit :: rest => do
    let d := visit.decl
    match ← firstMatch (c.scope namespaceName d) d name types d.methods with
    | some m => return some ⟨d.qualifiedName, m.name, types, some m.returnType, m.isStatic⟩
    | none =>
      visit.onward.forM Logged.tell
      c.firstMember namespaceName name types rest

/-- Finds the member of a type with the given name and exactly the given parameter types. Only
classes and interfaces have members. -/
def bind (c : Catalog) (namespaceName : String) (target : Descriptor) (name : String)
    (types : List Descriptor) : Logged (Option Member) :=
  if target.kind = .declared then
    c.firstMember namespaceName name types (c.visits namespaceName target.name)
  else pure none

end MethodSig.Catalog
