import MethodSig.Proofs.Source.Readings
import MethodSig.Proofs.Source.Survey

/-!
# Surveying a commented tree

The survey of a tree and that of the tree with comments placed in it go through the same types and
methods, as long as no comment shows in a text that is read.
-/

namespace MethodSig.Source

open Text

/-! ## Surveys that agree -/

/-- The surveys find the same, and neither or both come to an early end. -/
structure Survey.Agree (a b : Survey) : Prop where
  found : a.found = b.found
  fault : a.fault.isSome = b.fault.isSome

namespace Survey

variable {a a' b b' : Survey}

theorem Agree.refl (a : Survey) : Agree a a :=
  ⟨rfl, rfl⟩

theorem empty_append (a : Survey) : empty ++ a = a :=
  rfl

theorem Agree.append (ha : Agree a a') (hb : Agree b b') : Agree (a ++ b) (a' ++ b') := by
  obtain ⟨found, fault⟩ := a
  obtain ⟨found', fault'⟩ := a'
  obtain rfl : found = found' := ha.found
  have hfault : fault.isSome = fault'.isSome := ha.fault
  cases fault with
  | some _ =>
      cases fault' with
      | some _ => exact ⟨rfl, rfl⟩
      | none => contradiction
  | none =>
      cases fault' with
      | some _ => contradiction
      | none => exact ⟨congrArg (found ++ ·) hb.found, hb.fault⟩

theorem Agree.after {α : Type} {x x' : Except Utf8.Fault α} {onward onward' : α → Survey}
    (h : x.toOption = x'.toOption) (honward : ∀ a, x = .ok a → Agree (onward a) (onward' a)) :
    Agree (Survey.after x onward) (Survey.after x' onward') := by
  cases x with
  | error fault =>
      cases x' with
      | error fault' => exact ⟨rfl, rfl⟩
      | ok a' => contradiction
  | ok a =>
      cases x' with
      | error fault' => contradiction
      | ok a' =>
          obtain rfl : a = a' := Option.some.inj h
          exact honward a rfl

end Survey

section

variable {source source' : List UInt8} {package : String} {imports : List String}

theorem agree_methods {ns ns' : List Node} (h : Among (Commented source source') ns ns')
    (owner : String) (hn : ∀ r ∈ Node.memberReadings ns, r.IsClear source)
    (hn' : ∀ r ∈ Node.memberReadings ns', r.IsClear source') :
    ((File.mk source package imports).methods owner ns).Agree
      ((File.mk source' package imports).methods owner ns') := by
  -- by induction on the commented nodes: a comment among them has no partner
  induction ns' using Node.memberReadings.induct generalizing ns with
  | case1 =>
      cases h
      rw [File.methods, File.methods]
      exact .refl _
  | case2 n' rest' _ ihChildren ihRest =>
      rw [Node.memberReadings, List.forall_mem_append] at hn'
      rw [File.methods.eq_def _ _ (n' :: rest')]
      cases h with
      | comment hc hrest =>
          have hbody := hc.type_ne "enum_body_declarations" (by decide) (by decide)
          have hmethod := hc.type_ne "method_declaration" (by decide) (by decide)
          simp only [if_neg hbody, if_neg hmethod, Survey.empty_append]
          exact ihRest hrest hn hn'.2
      | @part n _ rest _ hrel hrest =>
          rw [Node.memberReadings, List.forall_mem_append] at hn
          rw [File.methods.eq_def _ _ (n :: rest)]
          dsimp only at hn hn' ⊢
          refine Survey.Agree.append ?_ (ihRest hrest hn.2 hn'.2)
          rw [hrel.type] at hn' ⊢
          split
          next hbody =>
            rw [if_pos hbody] at hn hn'
            exact ihChildren hrel.among hn.1 hn'.1
          next hbody =>
            rw [if_neg hbody] at hn hn'
            split
            next hmethod =>
              rw [if_pos hmethod] at hn hn'
              refine Survey.Agree.after (hrel.toOption_methodDecl_eq hn.1 hn'.1) ?_
              intro found _
              exact .refl _
            next => exact .refl _

theorem toOption_typeDecl_eq {n n' : Node} (h : Commented source source' n n')
    (qualifiedName : String) (hn : ∀ m ∈ n.supertypeNodes, Enclosed source m)
    (hn' : ∀ m ∈ n'.supertypeNodes, Enclosed source' m) :
    ((File.mk source package imports).typeDecl qualifiedName n).toOption =
      ((File.mk source' package imports).typeDecl qualifiedName n').toOption := by
  refine toOption_bind_congr (h.toOption_supertypes_eq hn hn') fun _ => ?_
  rw [h.type]

/-! ### Declared types and what they hold -/

def Node.heldReadings (n : Node) : List Reading :=
  (n.field? "body").elim [] fun body =>
    memberReadings body.children ++ typeReadings body.children

def Node.declaredReadings (n : Node) : List Reading :=
  (n.field? "name").elim [] fun name =>
    .whole name :: n.supertypeNodes.map .type ++ n.heldReadings

theorem typeReadings_cons (n : Node) (rest : List Node) :
    Node.typeReadings (n :: rest) =
      (if typeDeclarations.contains n.type then n.declaredReadings
      else if typeBodies.contains n.type then Node.typeReadings n.children
      else []) ++ Node.typeReadings rest := by
  rw [Node.typeReadings, Node.declaredReadings]
  congr 2
  cases n.field? "name" with
  | none => rfl
  | some name =>
      dsimp only [Option.elim_some]
      congr 1
      rw [Node.heldReadings]
      split
      next h => rw [h, Option.elim_none]
      next body h => rw [h, Option.elim_some]

/-- The surveys of two bodies agree if those of the types in them do. -/
theorem agree_held {n n' : Node} (h : Commented source source' n n') (qualifiedName : String)
    (hn : ∀ r ∈ n.heldReadings, r.IsClear source)
    (hn' : ∀ r ∈ n'.heldReadings, r.IsClear source')
    (htypes : ∀ body body', n'.field? "body" = some body' → Commented source source' body body' →
      (∀ r ∈ Node.typeReadings body.children, r.IsClear source) →
      (∀ r ∈ Node.typeReadings body'.children, r.IsClear source') →
      ((File.mk source package imports).types qualifiedName body.children).Agree
        ((File.mk source' package imports).types qualifiedName body'.children)) :
    ((File.mk source package imports).held qualifiedName n).Agree
      ((File.mk source' package imports).held qualifiedName n') := by
  unfold Node.heldReadings at hn hn'
  unfold File.held
  rcases none_or_exists_of_rel (h.field? "body") with ⟨hb, hb'⟩ | ⟨body, body', hb, hb', hbody⟩
  · rw [hb, hb', Option.elim_none, Option.elim_none]
    exact .refl _
  · rw [hb, Option.elim_some] at hn ⊢
    rw [hb', Option.elim_some] at hn' ⊢
    rw [List.forall_mem_append] at hn hn'
    exact (agree_methods hbody.among _ hn.1 hn'.1).append
      (htypes body body' hb' hbody hn.2 hn'.2)

/-- The surveys of two declared types agree if those of their bodies do. -/
theorem agree_declared {n n' : Node} (h : Commented source source' n n') (outer : String)
    (hn : ∀ r ∈ n.declaredReadings, r.IsClear source)
    (hn' : ∀ r ∈ n'.declaredReadings, r.IsClear source')
    (hheld : ∀ qualifiedName, (∀ r ∈ n.heldReadings, r.IsClear source) →
      (∀ r ∈ n'.heldReadings, r.IsClear source') →
      ((File.mk source package imports).held qualifiedName n).Agree
        ((File.mk source' package imports).held qualifiedName n')) :
    ((File.mk source package imports).declared outer n).Agree
      ((File.mk source' package imports).declared outer n') := by
  unfold Node.declaredReadings at hn hn'
  unfold File.declared
  rcases none_or_exists_of_rel (h.field? "name") with ⟨hm, hm'⟩ | ⟨m, m', hm, hm', hname⟩
  · rw [hm, hm', Option.elim_none, Option.elim_none]
    exact .refl _
  · rw [hm, Option.elim_some] at hn ⊢
    rw [hm', Option.elim_some] at hn' ⊢
    rw [List.cons_append, List.forall_mem_cons, List.forall_mem_append] at hn hn'
    have htext := congrArg Except.toOption (text_eq_of_uncommented hname hn'.1)
    refine Survey.Agree.after htext fun name _ => ?_
    refine Survey.Agree.after ?_ fun d _ => (Survey.Agree.refl _).append (hheld _ hn.2.2 hn'.2.2)
    exact toOption_typeDecl_eq h _ (fun m hm => hn.2.1 _ (List.mem_map_of_mem hm))
      (fun m hm => hn'.2.1 _ (List.mem_map_of_mem hm))

theorem agree_types {ns ns' : List Node} (h : Among (Commented source source') ns ns')
    (outer : String) (hn : ∀ r ∈ Node.typeReadings ns, r.IsClear source)
    (hn' : ∀ r ∈ Node.typeReadings ns', r.IsClear source') :
    ((File.mk source package imports).types outer ns).Agree
      ((File.mk source' package imports).types outer ns') := by
  induction ns' using Node.typeReadings.induct generalizing ns outer with
  | case1 =>
      cases h
      rw [File.types, File.types]
      exact .refl _
  | case2 n' rest' _ ihBody ihChildren ihRest =>
      rw [typeReadings_cons, List.forall_mem_append] at hn'
      rw [types_cons _ _ n']
      cases h with
      | comment hc hrest =>
          have hdeclaration := hc.contains_type_eq_false typeDeclarations (by decide) (by decide)
          have hbody := hc.contains_type_eq_false typeBodies (by decide) (by decide)
          simp only [hdeclaration, hbody, Bool.false_eq_true, if_false, Survey.empty_append]
          exact ihRest hrest outer hn hn'.2
      | @part n _ rest _ hrel hrest =>
          rw [typeReadings_cons, List.forall_mem_append] at hn
          rw [types_cons _ _ n]
          refine Survey.Agree.append ?_ (ihRest hrest outer hn.2 hn'.2)
          rw [hrel.type] at hn' ⊢
          split
          next hdeclaration =>
            rw [if_pos hdeclaration] at hn hn'
            refine agree_declared hrel outer hn.1 hn'.1 ?_
            intro qualifiedName hheld hheld'
            refine agree_held hrel qualifiedName hheld hheld' ?_
            intro body body' hbody' hbody
            exact ihBody body' hbody' hbody.among qualifiedName
          next hdeclaration =>
            rw [if_neg hdeclaration] at hn hn'
            split
            next hbody =>
              rw [if_pos hbody] at hn hn'
              exact ihChildren hrel.among outer hn.1 hn'.1
            next => exact .refl _

end

/-- Comments do not show in any text that a survey of the tree takes. -/
def Node.IsLegible (source : List UInt8) (root : Node) : Prop :=
  ∀ r ∈ root.readings, r.IsClear source

/-- A survey of a commented tree agrees with that of the tree without these comments. -/
theorem agree_survey {source source' : List UInt8} {root root' : Node}
    (h : Commented source source' root root') (hlegible : root.IsLegible source)
    (hlegible' : root'.IsLegible source') :
    (survey source root).Agree (survey source' root') := by
  unfold Node.IsLegible Node.readings at hlegible hlegible'
  simp only [List.forall_mem_append, List.forall_mem_map, Option.mem_toList] at hlegible hlegible'
  obtain ⟨⟨hpackage', himports'⟩, htypes'⟩ := hlegible'
  unfold survey
  rw [h.package_eq hpackage']
  refine Survey.Agree.after rfl fun package _ => ?_
  refine Survey.Agree.after (h.toOption_imports_eq himports') fun imports _ => ?_
  exact agree_types h.among "" hlegible.2 htypes'

end MethodSig.Source
