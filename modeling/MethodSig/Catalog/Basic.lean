import MethodSig.Catalog.Declaration

/-!
# Type catalogs

A catalog holds declared types in the order in which their names were first registered, at most
one for each name. Registering a name again replaces its declaration and keeps its place.
-/

namespace MethodSig

/-- The registered types, in the order of first registration. -/
structure Catalog where
  types : List TypeDecl
  /-- No name is registered twice. -/
  names_nodup : (types.map TypeDecl.qualifiedName).Nodup

namespace Catalog

def empty : Catalog :=
  ⟨[], by simp⟩

instance : Inhabited Catalog := ⟨empty⟩

/-- The registered names, in order. -/
def names (c : Catalog) : List String :=
  c.types.map TypeDecl.qualifiedName

def size (c : Catalog) : Nat :=
  c.types.length

def get? (c : Catalog) (name : String) : Option TypeDecl :=
  c.types.find? (·.qualifiedName = name)

theorem mem_types_of_get? {c : Catalog} {name : String} {d : TypeDecl}
    (h : c.get? name = some d) : d ∈ c.types ∧ d.qualifiedName = name := by
  rw [get?] at h
  have hfound := List.find?_some h
  exact ⟨List.mem_of_find?_eq_some h, of_decide_eq_true hfound⟩

def contains (c : Catalog) (name : String) : Bool :=
  (c.get? name).isSome

/-- Puts a declaration in the place of the one with its name, or at the end. -/
def insertDecl (d : TypeDecl) : List TypeDecl → List TypeDecl
  | [] => [d]
  | e :: rest => if e.qualifiedName = d.qualifiedName then d :: rest else e :: insertDecl d rest

theorem mem_names_insertDecl {d : TypeDecl} {types : List TypeDecl} {name : String} :
    name ∈ (insertDecl d types).map TypeDecl.qualifiedName ↔
      name = d.qualifiedName ∨ name ∈ types.map TypeDecl.qualifiedName := by
  induction types with
  | nil => simp [insertDecl]
  | cons e rest ih =>
    unfold insertDecl
    split
    next h => simp [h]
    next h =>
      rw [List.map_cons, List.mem_cons, ih, List.map_cons, List.mem_cons]
      exact or_left_comm

theorem nodup_insertDecl {d : TypeDecl} {types : List TypeDecl}
    (h : (types.map TypeDecl.qualifiedName).Nodup) :
    ((insertDecl d types).map TypeDecl.qualifiedName).Nodup := by
  induction types with
  | nil => simp [insertDecl]
  | cons e rest ih =>
    rw [List.map_cons, List.nodup_cons] at h
    unfold insertDecl
    split
    next he => rw [List.map_cons, List.nodup_cons, ← he]; exact h
    next he =>
      rw [List.map_cons, List.nodup_cons, mem_names_insertDecl]
      exact ⟨by simp [he, h.1], ih h.2⟩

/-- Registers a type, replacing any declaration of the same name. -/
def insert (c : Catalog) (d : TypeDecl) : Catalog :=
  ⟨insertDecl d c.types, nodup_insertDecl c.names_nodup⟩

/-- Adds a method to the type registered under a name, behind those it has. An unregistered name
is given back. -/
def addMethod (c : Catalog) (owner : String) (m : MethodDecl) : Except String Catalog :=
  match c.get? owner with
  | none => .error owner
  | some d => .ok (c.insert { d with methods := d.methods ++ [m] })

/-- The types of both catalogs. The second decides where both declare a name. -/
def merge (c other : Catalog) : Catalog :=
  other.types.foldl insert c

end Catalog

end MethodSig
