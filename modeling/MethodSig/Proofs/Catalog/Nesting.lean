import MethodSig.Proofs.Catalog.Scan
import MethodSig.Proofs.Catalog.Scope
import MethodSig.Proofs.Source.Nesting

/-!
# Scopes of nested types

A scan registers each type of a source under the name of its chain. A scope goes outwards from a
name by cutting it at its dots for as long as the names are registered, and these are the names of
the types around it: the package behind them has the name of no type.
-/

namespace MethodSig

open Source

namespace QualifiedName

theorem parent?_eq_none {name : List Char} (h : '.' ∉ name) : parent? name = none := by
  have hdrop : name.reverse.dropWhile (· ≠ '.') = [] := by
    rw [List.dropWhile_eq_nil_iff]
    intro c hc
    apply decide_eq_true
    rintro rfl
    exact h (List.mem_reverse.mp hc)
  rw [parent?, hdrop]

theorem parent?_append_cons {outer last : List Char} (h : '.' ∉ last) :
    parent? (outer ++ '.' :: last) = some outer := by
  have hlast : ∀ c ∈ last.reverse, decide (c ≠ '.') = true := by
    intro c hc
    apply decide_eq_true
    rintro rfl
    exact h (List.mem_reverse.mp hc)
  have hreverse : (outer ++ '.' :: last).reverse = last.reverse ++ '.' :: outer.reverse := by simp
  rw [parent?, hreverse, List.dropWhile_append_of_pos hlast]
  simp

/-- The chains of a type and of the types around it, going outwards. -/
def enclosingChains (chain : List String) : List (List String) :=
  chain.inits.tail.reverse

theorem enclosingChains_concat (chain : List String) (name : String) :
    enclosingChains (chain ++ [name]) = (chain ++ [name]) :: enclosingChains chain := by
  have hinits : (chain ++ [name]).inits = chain.inits ++ [chain ++ [name]] := by
    rw [List.inits_append]
    simp
  have hne : chain.inits ≠ [] :=
    List.ne_nil_of_mem ((List.mem_inits _ _).mpr List.nil_prefix)
  rw [enclosingChains, hinits, List.tail_append_of_ne_nil hne, List.reverse_append,
    List.reverse_singleton, List.singleton_append, enclosingChains]

theorem mem_enclosingChains {outer chain : List String} :
    outer ∈ enclosingChains chain ↔ outer <+: chain ∧ outer ≠ [] := by
  induction chain using List.reverseRecOn with
  | nil => simp [enclosingChains]
  | append_singleton before name ih =>
      rw [enclosingChains_concat, List.mem_cons, ih, List.prefix_concat_iff, or_and_right]
      refine or_congr_left (iff_self_and.mpr ?_)
      rintro rfl
      simp

end QualifiedName

namespace Catalog

variable {c : Catalog}

/-! ## The names that a scan registers -/

theorem mem_names_registerAll (c : Catalog) {found : List Registration} (h : Owned c.names found)
    (q : String) : q ∈ (c.registerAll found).value.catalog.names ↔
      q ∈ c.names ∨ ∃ d, Registration.type d ∈ found ∧ d.qualifiedName = q := by
  induction found generalizing c with
  | nil => simp [registerAll]
  | cons r rest ih =>
      cases r with
      | type d =>
          have hinsert (name : String) :
              name ∈ (c.insert d).names ↔ name = d.qualifiedName ∨ name ∈ c.names := by
            rw [names, insert, mem_names_insertDecl, names]
          have hrest : Owned (c.insert d).names rest := by
            refine Owned.mono h ?_
            intro name hname
            exact (hinsert name).mpr (List.mem_cons.mp hname)
          have hvalue : (c.registerAll (.type d :: rest)).value =
              ((c.insert d).registerAll rest).value := by
            simp [registerAll, register]
          rw [hvalue, ih (c.insert d) hrest, hinsert]
          simp only [List.mem_cons, Registration.type.injEq, or_and_right, exists_or,
            exists_eq_left, eq_comm (a := q)]
          rw [or_assoc, or_left_comm]
      | method owner m =>
          obtain ⟨after, hadd, hnames, -⟩ := addMethod_merge empty h.1 m
          have hvalue : (c.registerAll (.method owner m :: rest)).value =
              (after.registerAll rest).value := by
            simp [registerAll, register, hadd]
          rw [hvalue, ih after (hnames ▸ h.2), ← hnames]
          simp

theorem mem_names_scanTree {source : List UInt8} {root : Node} {q : String} :
    q ∈ (empty.scanTree source root).value.catalog.names ↔ (survey source root).FindsType q := by
  have hnames := mem_names_registerAll empty (owned_survey source root) q
  have hempty : q ∉ empty.names := List.not_mem_nil
  rw [or_iff_right hempty] at hnames
  simpa [scanTree, Survey.FindsType] using hnames

theorem fault_scanTree_eq_none {source : List UInt8} {root : Node} :
    (empty.scanTree source root).value.fault = none ↔ (survey source root).fault = none := by
  have hregister := (registerAll_merge empty empty (owned_survey source root)).2
  rw [merge_empty] at hregister
  simp [scanTree, hregister]

/-! ## Going outwards -/

theorem enclosing_of_not_contains {name : String} (h : c.contains name = false) :
    c.enclosing name.toList = [] := by
  rw [enclosing, String.ofList_toList, h, if_neg Bool.false_ne_true]

theorem enclosing_of_parent?_eq_none {name : String} (h : c.contains name = true)
    (hparent : QualifiedName.parent? name.toList = none) : c.enclosing name.toList = [name] := by
  rw [enclosing_eq_takeWhile, QualifiedName.outwards_of_parent?_eq_none hparent,
    String.ofList_toList, List.takeWhile_cons_of_pos h, List.takeWhile_nil]

theorem enclosing_of_parent? {name outer : String} (h : c.contains name = true)
    (hparent : QualifiedName.parent? name.toList = some outer.toList) :
    c.enclosing name.toList = name :: c.enclosing outer.toList := by
  rw [enclosing_eq_takeWhile, QualifiedName.outwards_of_parent? hparent, String.ofList_toList,
    List.takeWhile_cons_of_pos h, enclosing_eq_takeWhile]

theorem enclosing_append {outer name : String} (hname : '.' ∉ name.toList)
    (h : c.contains (outer ++ "." ++ name) = true) :
    c.enclosing (outer ++ "." ++ name).toList =
      (outer ++ "." ++ name) :: c.enclosing outer.toList := by
  apply enclosing_of_parent? h
  have happend : (outer ++ "." ++ name).toList = outer.toList ++ '.' :: name.toList := by simp
  rw [happend, QualifiedName.parent?_append_cons hname]

/-- Where a type and all types around it are registered, but nothing under the name of their
package, going outwards from the type meets exactly these. -/
theorem enclosing_ofChain {package : String} {chain : List String}
    (hnames : ∀ name ∈ chain, '.' ∉ name.toList) (hpackage : c.contains package = false)
    (hchain : chain ≠ []) (hregistered : ∀ outer ∈ QualifiedName.enclosingChains chain,
      c.contains (QualifiedName.ofChain package outer) = true) :
    c.enclosing (QualifiedName.ofChain package chain).toList =
      (QualifiedName.enclosingChains chain).map (QualifiedName.ofChain package) := by
  induction chain using List.reverseRecOn with
  | nil => contradiction
  | append_singleton before name ih =>
      rw [QualifiedName.enclosingChains_concat, List.forall_mem_cons] at hregistered
      obtain ⟨hself, houter⟩ := hregistered
      have hname : '.' ∉ name.toList := hnames name (by simp)
      have hbefore : ∀ name ∈ before, '.' ∉ name.toList := by
        intro name hmem
        exact hnames name (List.mem_append_left _ hmem)
      rw [QualifiedName.enclosingChains_concat, List.map_cons]
      by_cases hempty : before = []
      · -- the outermost type: what is left is the package, which is no type
        subst hempty
        rw [List.nil_append, QualifiedName.ofChain_singleton] at hself ⊢
        unfold QualifiedName.inside at hself ⊢
        split
        next hunnamed =>
          rw [if_pos hunnamed] at hself
          exact enclosing_of_parent?_eq_none hself (QualifiedName.parent?_eq_none hname)
        next hunnamed =>
          rw [if_neg hunnamed] at hself
          rw [enclosing_append hname hself, enclosing_of_not_contains hpackage]
          rfl
      · rw [QualifiedName.ofChain_concat hempty] at hself ⊢
        rw [enclosing_append hname hself, ih hbefore hempty houter]

/-- A scan that comes to no early end registers the types at the ends of the chains of a source,
each with all types around it. So the scope of a registered type starts with the members of that
type and of all types around it, going outwards. -/
theorem scanTree_nested {source : List UInt8} {root : Node} (hnames : root.HasPlainNames source)
    (hscan : (empty.scanTree source root).value = ⟨c, none⟩) :
    ∃ package, root.package source = .ok package ∧
      (∀ q, q ∈ c.names ↔
        ∃ chain, root.Holds source chain ∧ QualifiedName.ofChain package chain = q) ∧
      ∀ chain, root.Holds source chain →
        (∀ outer ∈ QualifiedName.enclosingChains chain,
          QualifiedName.ofChain package outer ∈ c.names) ∧
        ∀ d ∈ c.types, d.qualifiedName = QualifiedName.ofChain package chain →
          ∀ simpleName, c.candidates d simpleName =
            ((QualifiedName.enclosingChains chain).map fun outer =>
              QualifiedName.ofChain package outer ++ "." ++ simpleName) ++
            singleImports d simpleName ++ [QualifiedName.inside d.package simpleName] ++
            (onDemandImports d).map (· ++ "." ++ simpleName) := by
  have hfault : (empty.scanTree source root).value.fault = none := by rw [hscan]
  obtain ⟨package, hpackage, hfinds⟩ :=
    findsType_survey_iff hnames (fault_scanTree_eq_none.mp hfault)
  have hregistered (q : String) : q ∈ c.names ↔
      ∃ chain, root.Holds source chain ∧ QualifiedName.ofChain package chain = q := by
    rw [← hfinds, ← mem_names_scanTree, hscan]
  refine ⟨package, hpackage, hregistered, ?_⟩
  intro chain hchain
  have houter : ∀ outer ∈ QualifiedName.enclosingChains chain,
      QualifiedName.ofChain package outer ∈ c.names := by
    intro outer houter
    obtain ⟨hbegins, hne⟩ := QualifiedName.mem_enclosingChains.mp houter
    exact (hregistered _).mpr ⟨outer, hchain.of_prefix hbegins hne, rfl⟩
  refine ⟨houter, ?_⟩
  intro d hd hname simpleName
  have hunregistered : c.contains package = false := by
    rw [← Bool.not_eq_true, contains_iff_mem_names, hregistered]
    rintro ⟨other, hother, heq⟩
    exact QualifiedName.ofChain_ne_package hother.ne_nil
      (fun name hmem => (hnames other hother name hmem).1) heq
  have henclosing := enclosing_ofChain (fun name hmem => (hnames chain hchain name hmem).2)
    hunregistered hchain.ne_nil
    (fun outer hmem => (contains_iff_mem_names c _).mpr (houter outer hmem))
  rw [candidates, hname, henclosing, List.map_map]
  rfl

end Catalog

/-! ## A class behind the constants of an enumeration -/

namespace Enumeration

def text : List UInt8 :=
  Text.Utf8.encode "package p;enum A\x7bX;class B\x7b\x7d\x7d"

def inner : Node :=
  ⟨"class_declaration", true, 19, 28, none, [
    ⟨"identifier", true, 25, 26, some "name", []⟩,
    ⟨"class_body", true, 26, 28, some "body", []⟩]⟩

def body : Node :=
  ⟨"enum_body", true, 16, 29, some "body", [
    ⟨"enum_constant", true, 17, 18, none, [⟨"identifier", true, 17, 18, some "name", []⟩]⟩,
    ⟨"enum_body_declarations", true, 18, 28, none, [inner]⟩]⟩

def outer : Node :=
  ⟨"enum_declaration", true, 10, 29, none, [⟨"identifier", true, 15, 16, some "name", []⟩, body]⟩

/-- The syntax tree of the enumeration without its keywords and punctuation. -/
def tree : Node :=
  ⟨"program", true, 0, 29, none, [
    ⟨"package_declaration", true, 0, 10, none, [⟨"identifier", true, 8, 9, none, []⟩]⟩, outer]⟩

variable {chain : List String}

theorem declares_inner_iff : inner.Declares text chain ↔ chain = ["B"] := by
  have hname : inner.IsTypeNamed text "B" := ⟨by decide, _, rfl, by decide +kernel⟩
  constructor
  · intro h
    rcases Node.declares_iff.mp h with ⟨name, h, hchain⟩ | ⟨h, -⟩
    · obtain rfl := h.unique hname
      rcases hchain with hchain | ⟨body, rest, hbody, -, part, hpart, -⟩
      · exact hchain
      · obtain rfl := Option.some.inj hbody
        contradiction
    · contradiction
  · rintro rfl
    exact .type hname

theorem holds_body_iff : body.Holds text chain ↔ chain = ["B"] := by
  rw [← declares_inner_iff]
  constructor
  · rintro ⟨part, hpart, h⟩
    rcases List.mem_pair.mp hpart with rfl | rfl
    · rcases Node.declares_iff.mp h with ⟨name, h, -⟩ | ⟨h, -⟩
      · exact absurd h.1 (by decide)
      · contradiction
    · rcases Node.declares_iff.mp h with ⟨name, h, -⟩ | ⟨-, part, hpart, h⟩
      · exact absurd h.1 (by decide)
      · exact List.mem_singleton.mp hpart ▸ h
  · intro h
    exact ⟨_, .tail _ (.head _), .inBody (by decide) (.head _) h⟩

theorem holds_tree_iff : tree.Holds text chain ↔ chain = ["A"] ∨ chain = ["A", "B"] := by
  have hname : outer.IsTypeNamed text "A" := ⟨by decide, _, rfl, by decide +kernel⟩
  constructor
  · rintro ⟨part, hpart, h⟩
    rcases List.mem_pair.mp hpart with rfl | rfl
    · rcases Node.declares_iff.mp h with ⟨name, h, -⟩ | ⟨h, -⟩
      · exact absurd h.1 (by decide)
      · contradiction
    · rcases Node.declares_iff.mp h with ⟨name, h, hchain⟩ | ⟨h, -⟩
      · obtain rfl := h.unique hname
        rcases hchain with hchain | ⟨part, rest, hbody, rfl, h⟩
        · exact .inl hchain
        · obtain rfl := Option.some.inj hbody
          exact .inr (congrArg _ (holds_body_iff.mp h))
      · contradiction
  · rintro (rfl | rfl)
    · exact ⟨outer, .tail _ (.head _), .type hname⟩
    · obtain ⟨part, hpart, h⟩ := holds_body_iff.mpr rfl
      exact ⟨outer, .tail _ (.head _), .member hname rfl hpart h⟩

theorem hasPlainNames_tree : tree.HasPlainNames text := by
  intro chain hchain
  rcases holds_tree_iff.mp hchain with rfl | rfl
  · decide
  · decide

end Enumeration

/-- The scope of the class starts with its members and those of the enumeration around it. -/
theorem Catalog.scanTree_nested_enumeration :
    Enumeration.tree.HasPlainNames Enumeration.text ∧
      (empty.scanTree Enumeration.text Enumeration.tree).value.fault = none ∧
      (empty.scanTree Enumeration.text Enumeration.tree).value.catalog.candidates
        ⟨"p.A.B", "p", [], [], false, []⟩ "C" = ["p.A.B.C", "p.A.C", "p.C"] := by
  have hfault : (empty.scanTree Enumeration.text Enumeration.tree).value.fault = none := by
    decide +kernel
  refine ⟨Enumeration.hasPlainNames_tree, hfault, ?_⟩
  obtain ⟨package, hpackage, -, hchains⟩ := scanTree_nested Enumeration.hasPlainNames_tree
    (c := (empty.scanTree Enumeration.text Enumeration.tree).value.catalog) (by rw [← hfault])
  have hread : Enumeration.tree.package Enumeration.text = .ok "p" := by decide +kernel
  obtain rfl : package = "p" := Except.ok.inj (hpackage.symm.trans hread)
  have hinner : Enumeration.tree.Holds Enumeration.text ["A", "B"] :=
    Enumeration.holds_tree_iff.mpr (.inr rfl)
  have hdeclared : ⟨"p.A.B", "p", [], [], false, []⟩ ∈
      (empty.scanTree Enumeration.text Enumeration.tree).value.catalog.types := by
    decide +kernel
  rw [(hchains _ hinner).2 _ hdeclared (by decide +kernel) "C"]
  decide +kernel

end MethodSig
