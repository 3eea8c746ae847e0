import Mathlib.Data.List.Infix
import MethodSig.Proofs.Text.Blank
import MethodSig.Proofs.Type.Resolver

/-!
# What a simple name means in a scope

The names that a simple name may stand for are listed in the order in which a scope prefers them,
and the name means the first of them that is registered. Two kinds of registered types break this
order. A type of the unnamed package goes before all others, and a type whose name continues like
the default namespace is found where the namespace itself holds nothing.
-/

namespace MethodSig

/-- A name of one segment that is no primitive. -/
structure IsSimpleName (s : String) : Prop where
  ne_empty : s ≠ ""
  chars : ∀ c ∈ s.toList,
    c ≠ '.' ∧ c ≠ '$' ∧ TypeText.isBracket c = false ∧ Text.isBlank c = false
  notPrimitive : s ∉ primitiveNames

instance (s : String) : Decidable (IsSimpleName s) :=
  decidable_of_iff (s ≠ "" ∧ s.toList.all (fun c => decide (c ≠ '.' ∧ c ≠ '$' ∧
      TypeText.isBracket c = false ∧ Text.isBlank c = false)) = true ∧ s ∉ primitiveNames) <| by
    simp only [List.all_eq_true, decide_eq_true_eq]
    exact ⟨fun ⟨hne, hchars, hprimitive⟩ => ⟨hne, hchars, hprimitive⟩,
      fun ⟨hne, hchars, hprimitive⟩ => ⟨hne, hchars, hprimitive⟩⟩

namespace IsSimpleName

variable {s : String}

theorem dot_notMem (hs : IsSimpleName s) : '.' ∉ s.toList :=
  fun hmem => (hs.chars '.' hmem).1 rfl

theorem normalize_eq_self (hs : IsSimpleName s) : TypeText.normalize s.toList = s.toList := by
  apply TypeText.normalize_eq_self
  · exact fun c hc => (hs.chars c hc).2.2.2
  · intro hdots
    exact hs.dot_notMem (hdots.subset (by simp))

theorem arraySuffix?_eq_none (hs : IsSimpleName s) : TypeText.arraySuffix? s.toList = none := by
  have hdrop : s.toList.dropWhile (!TypeText.isBracket ·) = [] := by
    rw [List.dropWhile_eq_nil_iff]
    intro c hc
    simp [(hs.chars c hc).2.2.1]
  unfold TypeText.arraySuffix?
  rw [hdrop]
  split
  next heq => simp [TypeText.bracketPairs?] at heq
  next => rfl

theorem dollar_notMem (hs : IsSimpleName s) : '$' ∉ s.toList :=
  fun hmem => (hs.chars '$' hmem).2.1 rfl

theorem splitHead_eq (hs : IsSimpleName s) : QualifiedName.splitHead s = (s, "") := by
  have hall : ∀ c ∈ s.toList, decide (c ≠ '.') = true :=
    fun c hc => decide_eq_true (hs.chars c hc).1
  rw [QualifiedName.splitHead, List.takeWhile_eq_self_iff.mpr hall,
    List.dropWhile_eq_nil_iff.mpr hall, String.ofList_toList]
  rfl

end IsSimpleName

namespace QualifiedName

/-- A name and the names that it begins with, up to each of its dots, going outwards. -/
def outwards (name : List Char) : List String :=
  (name.splitOn '.').inits.tail.reverse.map fun segments =>
    String.ofList (['.'].intercalate segments)

theorem dot_notMem_of_parent?_eq_none {name : List Char} (h : parent? name = none) :
    '.' ∉ name := by
  unfold parent? at h
  split at h
  next hdrop =>
    rw [List.dropWhile_eq_nil_iff] at hdrop
    intro hmem
    simpa using hdrop '.' (List.mem_reverse.mpr hmem)
  next => simp at h

theorem eq_append_of_parent? {name outer : List Char} (h : parent? name = some outer) :
    ∃ last, name = outer ++ '.' :: last ∧ '.' ∉ last := by
  unfold parent? at h
  split at h
  next => simp at h
  next c before hdrop =>
    have hc : c = '.' := by
      have := List.head?_dropWhile_not (· ≠ '.') name.reverse
      rw [hdrop] at this
      simpa using this
    have hcut := List.takeWhile_append_dropWhile (p := (· ≠ '.')) (l := name.reverse)
    rw [hdrop, hc, Eq.comm, List.reverse_eq_iff] at hcut
    rw [Option.some.injEq] at h
    refine ⟨(name.reverse.takeWhile (· ≠ '.')).reverse, ?_, ?_⟩
    · calc
        name = (name.reverse.takeWhile (· ≠ '.') ++ '.' :: before).reverse := hcut
        _ = outer ++ '.' :: (name.reverse.takeWhile (· ≠ '.')).reverse := by simp [← h]
    · intro hmem
      have := List.mem_takeWhile_imp (List.mem_reverse.mp hmem)
      simp at this

theorem outwards_of_parent?_eq_none {name : List Char} (h : parent? name = none) :
    outwards name = [String.ofList name] := by
  simp [outwards, Text.splitOn_eq_singleton (dot_notMem_of_parent?_eq_none h)]

theorem outwards_of_parent? {name outer : List Char} (h : parent? name = some outer) :
    outwards name = String.ofList name :: outwards outer := by
  obtain ⟨last, hname, hlast⟩ := eq_append_of_parent? h
  have hsplit : name.splitOn '.' = outer.splitOn '.' ++ [last] := by
    rw [hname, ← Text.splitOn_eq_singleton hlast]
    exact List.splitOnP_append_cons outer last (beq_self_eq_true '.')
  have hinits : (name.splitOn '.').inits = (outer.splitOn '.').inits ++ [name.splitOn '.'] := by
    rw [hsplit, List.inits_append]
    simp
  have hne : (outer.splitOn '.').inits ≠ [] :=
    List.ne_nil_of_mem (List.mem_inits _ _ |>.mpr (List.nil_prefix))
  rw [outwards, hinits, List.tail_append_of_ne_nil hne, List.reverse_append,
    List.reverse_singleton, List.singleton_append, List.map_cons, List.intercalate_splitOn]
  rfl

end QualifiedName

namespace Catalog

variable {c : Catalog}

/-- The enclosing types are found by going outwards for as long as the names are registered. -/
theorem enclosing_eq_takeWhile (c : Catalog) (name : List Char) :
    c.enclosing name = (QualifiedName.outwards name).takeWhile c.contains := by
  fun_induction c.enclosing name with
  | case1 name hregistered ih =>
      split
      next outer houter =>
        rw [QualifiedName.outwards_of_parent? houter, List.takeWhile_cons_of_pos hregistered,
          ih outer houter]
      next hnone =>
        rw [QualifiedName.outwards_of_parent?_eq_none hnone,
          List.takeWhile_cons_of_pos hregistered, List.takeWhile_nil]
  | case2 name hregistered =>
      cases hparent : QualifiedName.parent? name with
      | none =>
          rw [QualifiedName.outwards_of_parent?_eq_none hparent,
            List.takeWhile_cons_of_neg hregistered]
      | some outer =>
          rw [QualifiedName.outwards_of_parent? hparent, List.takeWhile_cons_of_neg hregistered]

/-! ## Looking names up -/

/-- The names that a scope prefers for a simple name, in order: a member of the declaring type or
of a registered type around it, a single import, a type of the same package, a type imported on
demand. -/
def scopedNames (c : Catalog) (d : TypeDecl) (s : String) : List String :=
  ((QualifiedName.outwards d.qualifiedName.toList).takeWhile c.contains).map (· ++ "." ++ s) ++
    singleImports d s ++ [QualifiedName.inside d.package s] ++
    (onDemandImports d).map (· ++ "." ++ s)

theorem candidates_eq_scopedNames (c : Catalog) (d : TypeDecl) (s : String) :
    c.candidates d s = c.scopedNames d s := by
  rw [candidates, scopedNames, enclosing_eq_takeWhile]

/-- The name in the default namespace; none if there is no namespace. -/
def defaultNames (namespaceName s : String) : List String :=
  if namespaceName.isEmpty then [] else [namespaceName ++ "." ++ s]

/-- The names that go on like a qualified name behind one that its first segment may stand for. -/
def continuedNames (c : Catalog) (d : TypeDecl) (name : String) : List String :=
  (c.scopedNames d (QualifiedName.splitHead name).1).map fun candidate =>
    if (QualifiedName.splitHead name).2.isEmpty then candidate
    else candidate ++ "." ++ (QualifiedName.splitHead name).2

/-- A scope looks a name up as it stands and then behind what its first segment may stand for. -/
theorem lookupInScope_eq_find? (c : Catalog) (d : TypeDecl) (name : String) :
    c.lookupInScope d name =
      ((QualifiedName.dotted name :: c.continuedNames d name).find? c.contains).map .named := by
  rw [lookupInScope, lookup, List.find?_cons]
  cases c.contains (QualifiedName.dotted name) with
  | true => rfl
  | false => simp only [candidates_eq_scopedNames]; rfl

theorem continuedNames_of_isSimpleName {s : String} (hs : IsSimpleName s) (d : TypeDecl) :
    c.continuedNames d s = c.scopedNames d s := by
  simp [continuedNames, hs.splitHead_eq]

/-- The names that are tried for a simple name once its scope holds nothing. -/
def retriedNames (c : Catalog) (namespaceName : String) (d : TypeDecl) (s : String) :
    List String :=
  (defaultNames namespaceName s).flatMap fun name =>
    QualifiedName.dotted name :: c.continuedNames d name

theorem value_inNamespace_of_isSimpleName (c : Catalog) (namespaceName : String) (d : TypeDecl)
    {s : String} (hs : IsSimpleName s) :
    ((c.scope namespaceName d).inNamespace s).value =
      ((c.retriedNames namespaceName d s).find? c.contains).map .named := by
  have hdot : s.contains '.' = false := by
    rw [String.contains_char_eq]
    exact decide_eq_false hs.dot_notMem
  rw [Resolver.inNamespace, hdot, Bool.false_or, retriedNames, defaultNames]
  change (if namespaceName.isEmpty = true then _ else _ : Logged _).value = _
  by_cases hempty : namespaceName.isEmpty = true
  · simp [hempty]
  · rw [if_neg hempty, if_neg hempty, List.flatMap_singleton, ← lookupInScope_eq_find?]
    rfl

/-- A simple name is tried as it stands, in the order of the scope, and in the namespace. -/
theorem value_resolve?_of_isSimpleName (c : Catalog) (namespaceName : String) (d : TypeDecl)
    {s : String} (hs : IsSimpleName s) :
    ((c.scope namespaceName d).resolve? s).value =
      ((s :: c.scopedNames d s ++ c.retriedNames namespaceName d s).find? c.contains).map
        .named := by
  have hne : TypeText.normalize s.toList ≠ [] := by
    rw [hs.normalize_eq_self]
    exact mt String.toList_eq_nil_iff.mp hs.ne_empty
  have hdirect : (c.scope namespaceName d).direct? s =
      ((s :: c.scopedNames d s).find? c.contains).map .named := by
    rw [Resolver.direct?, if_neg (mt List.contains_iff_mem.mp hs.notPrimitive)]
    refine (c.lookupInScope_eq_find? d s).trans ?_
    rw [Catalog.dotted_eq_self_of_dollar_notMem hs.dollar_notMem, continuedNames_of_isSimpleName hs]
  rw [Resolver.resolve?, Resolver.value_resolveChars _ hne, hs.normalize_eq_self,
    String.ofList_toList, hs.arraySuffix?_eq_none, hdirect,
    value_inNamespace_of_isSimpleName c namespaceName d hs, List.find?_append]
  cases (s :: c.scopedNames d s).find? c.contains with
  | none => rfl
  | some name => rfl

/-- Where no other registered name goes on like the one in the namespace, only that one can be
found. -/
theorem find?_retriedNames {namespaceName s : String} {d : TypeDecl}
    (h : ∀ name ∈ defaultNames namespaceName s, QualifiedName.dotted name = name ∧
      ∀ other ∈ c.continuedNames d name, c.contains other = true → other = name) :
    (c.retriedNames namespaceName d s).find? c.contains =
      (defaultNames namespaceName s).find? c.contains := by
  unfold retriedNames
  unfold defaultNames at h ⊢
  by_cases hempty : namespaceName.isEmpty = true
  · simp [hempty]
  · rw [if_neg hempty] at h ⊢
    obtain ⟨hdotted, hother⟩ := h _ (List.mem_singleton_self _)
    rw [List.flatMap_singleton, hdotted, List.find?_cons, List.find?_singleton]
    cases hcontains : c.contains (namespaceName ++ "." ++ s) with
    | true => rfl
    | false =>
        refine List.find?_eq_none.mpr ?_
        intro other hmem hregistered
        rw [hother other hmem hregistered, hcontains] at hregistered
        contradiction

/-- A simple name means the first registered of the name itself, the names that its scope prefers,
and those that are tried in the namespace. So it means the first registered of what the scope
prefers and of the name in the namespace, unless a type of the unnamed package goes before them or
another registered name goes on like the one in the namespace. -/
theorem resolve_simpleName (c : Catalog) (namespaceName : String) (d : TypeDecl) {s : String}
    (hs : IsSimpleName s) :
    ((c.scope namespaceName d).resolve? s).value =
        ((s :: c.scopedNames d s ++ c.retriedNames namespaceName d s).find? c.contains).map
          .named ∧
      ((c.contains s = true → (c.scopedNames d s).find? c.contains = some s) →
        (∀ name ∈ defaultNames namespaceName s, QualifiedName.dotted name = name ∧
          ∀ other ∈ c.continuedNames d name, c.contains other = true → other = name) →
        ((c.scope namespaceName d).resolve? s).value =
          ((c.scopedNames d s ++ defaultNames namespaceName s).find? c.contains).map .named) := by
  have hexact := value_resolve?_of_isSimpleName c namespaceName d hs
  refine ⟨hexact, ?_⟩
  intro hunnamed hcontinued
  have hscope : (s :: c.scopedNames d s).find? c.contains =
      (c.scopedNames d s).find? c.contains := by
    rw [List.find?_cons]
    cases hcontains : c.contains s with
    | true => exact (hunnamed hcontains).symm
    | false => rfl
  rw [hexact, List.find?_append, hscope, List.find?_append, find?_retriedNames hcontinued]

/-- A package with a type that has a namesake nested in another type of the package. -/
def nested : Catalog :=
  [⟨"p.Outer", "p", [], [], false, []⟩, ⟨"p.Outer.Item", "p", [], [], false, []⟩,
    ⟨"p.Item", "p", [], [], false, []⟩].foldl insert empty

/-- The nested type goes before the one of the package. -/
theorem resolve_simpleName_nested :
    ((nested.scope "java.lang" ⟨"p.Outer", "p", [], [], false, []⟩).resolve? "Item").value =
      some (.named "p.Outer.Item") := by
  have hs : IsSimpleName "Item" := by decide
  obtain ⟨-, hscope⟩ := resolve_simpleName nested "java.lang" ⟨"p.Outer", "p", [], [], false, []⟩ hs
  rw [hscope (by decide +kernel) (by decide +kernel)]
  decide +kernel

/-- A package with a type that has a namesake in the unnamed package. -/
def shadowed : Catalog :=
  [⟨"Item", "", [], [], false, []⟩, ⟨"p.Item", "p", [], [], false, []⟩,
    ⟨"p.Api", "p", [], [], false, [⟨"take", ["Item"], "void", ["public"]⟩]⟩].foldl insert empty

/-- The type of the unnamed package goes before the one of the package that the name stands in. -/
theorem resolve_simpleName_shadowed :
    ∃ d, shadowed.get? "p.Api" = some d ∧ d.package = "p" ∧ IsSimpleName "Item" ∧
      (shadowed.scopedNames d "Item" ++ defaultNames "java.lang" "Item").find? shadowed.contains =
        some "p.Item" ∧
      ((shadowed.scope "java.lang" d).resolve? "Item").value = some (.named "Item") := by
  refine ⟨⟨"p.Api", "p", [], [], false, [⟨"take", ["Item"], "void", ["public"]⟩]⟩, ?_⟩
  refine ⟨rfl, rfl, by decide, ?_, ?_⟩
  · decide +kernel
  · decide +kernel

end Catalog

end MethodSig
