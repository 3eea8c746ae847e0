import MethodSig.Source.Survey

/-!
# Surveys find types before their methods

Whatever tree is surveyed, and wherever the survey ends, every method that is found belongs to a
type that was found in front of it.
-/

namespace MethodSig.Source

/-- Every method belongs to a type that stands in front of it or is among the given ones. -/
def Owned (types : List String) : List Registration → Prop
  | [] => True
  | .type d :: rest => Owned (d.qualifiedName :: types) rest
  | .method owner _ :: rest => owner ∈ types ∧ Owned types rest

namespace Owned

variable {types others : List String} {a b : List Registration}

theorem mono (h : Owned types a) (hsubset : types ⊆ others) : Owned others a := by
  induction a generalizing types others with
  | nil => trivial
  | cons r rest ih =>
      cases r with
      | type d => exact ih h (List.cons_subset_cons _ hsubset)
      | method owner m => exact ⟨hsubset h.1, ih h.2 hsubset⟩

theorem append (ha : Owned types a) (hb : Owned types b) : Owned types (a ++ b) := by
  induction a generalizing types with
  | nil => exact hb
  | cons r rest ih =>
      cases r with
      | type d => exact ih ha (hb.mono (List.subset_cons_self _ _))
      | method owner m => exact ⟨ha.1, ih ha.2 hb⟩

end Owned

namespace Survey

variable {types : List String}

theorem owned_append {a b : Survey} (ha : Owned types a.found) (hb : Owned types b.found) :
    Owned types (a ++ b).found := by
  change Owned types (a.andThen b).found
  unfold andThen
  split
  · exact ha
  · exact ha.append hb

theorem owned_after {α : Type} {x : Except Text.Utf8.Fault α} {onward : α → Survey}
    (h : ∀ a, x = .ok a → Owned types (onward a).found) : Owned types (after x onward).found := by
  cases x with
  | ok a => exact h a rfl
  | error fault => trivial

theorem owned_type_append {d : TypeDecl} {s : Survey}
    (h : Owned (d.qualifiedName :: types) s.found) : Owned types (one (.type d) ++ s).found :=
  h

end Survey

/-- The survey of the body of a declared type, if there is one. -/
def File.held (f : File) (qualifiedName : String) (n : Node) : Survey :=
  (n.field? "body").elim .empty fun body =>
    f.methods qualifiedName body.children ++ f.types qualifiedName body.children

/-- The survey of a declared type and of what it holds. -/
def File.declared (f : File) (outer : String) (n : Node) : Survey :=
  (n.field? "name").elim .empty fun nameNode =>
    .after (nameNode.text f.source) fun name =>
      .after (f.typeDecl (f.qualify outer name) n) fun d =>
        .one (.type d) ++ f.held (f.qualify outer name) n

theorem types_cons (f : File) (outer : String) (n : Node) (rest : List Node) :
    f.types outer (n :: rest) =
      (if typeDeclarations.contains n.type then f.declared outer n
      else if typeBodies.contains n.type then f.types outer n.children
      else .empty) ++ f.types outer rest := by
  rw [File.types, File.declared]
  congr 2
  cases n.field? "name" with
  | none => rfl
  | some name =>
      dsimp only [Option.elim_some]
      congr 1
      funext nameText
      congr 1
      funext d
      congr 1
      rw [File.held]
      split
      next h => rw [h, Option.elim_none]
      next body h => rw [h, Option.elim_some]

namespace File

variable {f : File}

/-- The methods that are found in the body of a type belong to that type. -/
theorem owned_methods {owner : String} {types : List String} (h : owner ∈ types)
    (members : List Node) : Owned types (f.methods owner members).found := by
  fun_induction f.methods owner members with
  | case1 => trivial
  | case2 n rest _ here ihChildren ihRest =>
      refine Survey.owned_append ?_ ihRest
      unfold here
      split
      · exact ihChildren
      · split
        · refine Survey.owned_after ?_
          intro found _
          cases found with
          | none => trivial
          | some m => exact ⟨h, trivial⟩
        · trivial

theorem qualifiedName_of_typeDecl {qualifiedName : String} {n : Node} {d : TypeDecl}
    (h : f.typeDecl qualifiedName n = .ok d) : d.qualifiedName = qualifiedName := by
  unfold typeDecl at h
  cases hsupertypes : n.supertypes f.source with
  | error fault =>
      rw [hsupertypes] at h
      contradiction
  | ok supertypes =>
      rw [hsupertypes] at h
      exact congrArg TypeDecl.qualifiedName (Except.ok.inj h).symm

/-- A type is found before its methods, and these before the types inside it. -/
theorem owned_types (outer : String) (types : List String) (nodes : List Node) :
    Owned types (f.types outer nodes).found := by
  fun_induction f.types outer nodes generalizing types with
  | case1 => trivial
  | case2 outer n rest _ here ihBody ihChildren ihRest =>
      refine Survey.owned_append ?_ (ihRest types)
      unfold here
      split
      · split
        · trivial
        · refine Survey.owned_after ?_
          intro name _
          refine Survey.owned_after ?_
          intro d hd
          refine Survey.owned_type_append ?_
          split
          · trivial
          next body hbody =>
            refine Survey.owned_append (owned_methods ?_ _) (ihBody name body hbody _)
            rw [qualifiedName_of_typeDecl hd]
            exact List.mem_cons_self
      · split
        · exact ihChildren types
        · trivial

end File

/-- Every method that a survey finds belongs to a type that it found before. -/
theorem owned_survey (source : List UInt8) (root : Node) :
    Owned [] (survey source root).found := by
  refine Survey.owned_after ?_
  intro package _
  refine Survey.owned_after ?_
  intro imports _
  exact File.owned_types "" [] root.children

end MethodSig.Source
