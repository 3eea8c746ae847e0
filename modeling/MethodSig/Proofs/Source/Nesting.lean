import Mathlib.Data.List.Infix
import MethodSig.Catalog.QualifiedName
import MethodSig.Proofs.Source.Survey

/-!
# Types inside types

A type stands in a file, or in the body of another type, or in a part of such a body. The names on
the way to it make its chain. A survey goes the same way: it finds nothing but the ends of chains,
and all of them if it comes to no early end.
-/

namespace MethodSig

namespace QualifiedName

/-- The qualified name of the type at the end of a chain of names: the package, the names of the
types around it and its own. -/
def ofChain (package : String) (chain : List String) : String :=
  ".".intercalate (if package.isEmpty then chain else package :: chain)

variable {package name : String} {chain : List String}

theorem intercalate_concat (h : chain ≠ []) :
    ".".intercalate (chain ++ [name]) = ".".intercalate chain ++ "." ++ name := by
  induction chain with
  | nil => contradiction
  | cons first rest ih =>
      cases rest with
      | nil => simp
      | cons second rest =>
          have hrest := ih (List.cons_ne_nil second rest)
          rw [List.cons_append] at hrest
          rw [List.cons_append, List.cons_append, String.intercalate_cons_cons, hrest,
            String.intercalate_cons_cons]
          simp only [String.append_assoc]

theorem ofChain_singleton : ofChain package [name] = inside package name := by
  unfold ofChain inside
  split
  · simp
  · simp [String.append_assoc]

theorem ofChain_concat (h : chain ≠ []) :
    ofChain package (chain ++ [name]) = ofChain package chain ++ "." ++ name := by
  unfold ofChain
  split
  · exact intercalate_concat h
  · exact intercalate_concat (List.cons_ne_nil package chain)

theorem ofChain_ne_empty (h : chain ≠ []) (hnames : ∀ name ∈ chain, name ≠ "") :
    ofChain package chain ≠ "" := by
  rcases List.eq_nil_or_concat chain with rfl | ⟨before, name, rfl⟩
  · contradiction
  · by_cases hbefore : before = []
    · subst hbefore
      have hname := hnames name (by simp)
      rw [List.concat_eq_append, List.nil_append, ofChain_singleton, inside]
      split
      · exact hname
      · simp
    · rw [List.concat_eq_append, ofChain_concat hbefore]
      simp

/-- A type never has the name of its package. -/
theorem ofChain_ne_package (h : chain ≠ []) (hnames : ∀ name ∈ chain, name ≠ "") :
    ofChain package chain ≠ package := by
  by_cases hpackage : package = ""
  · rw [hpackage]
    exact ofChain_ne_empty h hnames
  · obtain ⟨first, rest, rfl⟩ := List.exists_cons_of_ne_nil h
    rw [ofChain, if_neg (by simpa using hpackage), String.intercalate_cons_cons]
    intro heq
    have hlength := congrArg (fun s => s.toList.length) heq
    simp at hlength

end QualifiedName

namespace Source

namespace Node

/-- The node declares a type of the given name. -/
def IsTypeNamed (source : List UInt8) (n : Node) (name : String) : Prop :=
  n.type ∈ typeDeclarations ∧
    ∃ nameNode, n.field? "name" = some nameNode ∧ nameNode.text source = .ok name

theorem IsTypeNamed.unique {source : List UInt8} {n : Node} {a b : String}
    (ha : n.IsTypeNamed source a) (hb : n.IsTypeNamed source b) : a = b := by
  obtain ⟨-, nameNode, hnode, ha⟩ := ha
  obtain ⟨-, otherNode, hother, hb⟩ := hb
  obtain rfl : nameNode = otherNode := Option.some.inj (hnode.symm.trans hother)
  exact Except.ok.inj (ha.symm.trans hb)

/-- The node declares a type, itself or inside the types that it declares. The chain has the names
of these types, the outermost first. -/
inductive Declares (source : List UInt8) : Node → List String → Prop
  | type {n : Node} {name : String} (hname : n.IsTypeNamed source name) : Declares source n [name]
  /-- A type in the body of a type. -/
  | member {n body part : Node} {name : String} {chain : List String}
      (hname : n.IsTypeNamed source name) (hbody : n.field? "body" = some body)
      (hpart : part ∈ body.children) (hinner : Declares source part chain) :
      Declares source n (name :: chain)
  /-- A type in a part of a body, such as the one behind the constants of an enumeration. -/
  | inBody {n part : Node} {chain : List String} (hbody : n.type ∈ typeBodies)
      (hpart : part ∈ n.children) (hinner : Declares source part chain) : Declares source n chain

/-- A part of the tree declares a type with the given chain. -/
def Holds (source : List UInt8) (root : Node) (chain : List String) : Prop :=
  ∃ part ∈ root.children, part.Declares source chain

variable {source : List UInt8} {n root : Node} {chain outer : List String}

theorem declares_iff : n.Declares source chain ↔
    (∃ name, n.IsTypeNamed source name ∧ (chain = [name] ∨
      ∃ body inner, n.field? "body" = some body ∧ chain = name :: inner ∧
        body.Holds source inner)) ∨
    n.type ∈ typeBodies ∧ n.Holds source chain := by
  constructor
  · intro h
    cases h with
    | type hname => exact .inl ⟨_, hname, .inl rfl⟩
    | member hname hbody hpart hinner =>
        exact .inl ⟨_, hname, .inr ⟨_, _, hbody, rfl, _, hpart, hinner⟩⟩
    | inBody hbody hpart hinner => exact .inr ⟨hbody, _, hpart, hinner⟩
  · rintro (⟨name, hname, rfl | ⟨body, inner, hbody, rfl, part, hpart, hinner⟩⟩ |
      ⟨hbody, part, hpart, hinner⟩)
    · exact .type hname
    · exact .member hname hbody hpart hinner
    · exact .inBody hbody hpart hinner

namespace Declares

theorem ne_nil (h : n.Declares source chain) : chain ≠ [] := by
  induction h with
  | type hname => simp
  | member hname hbody hpart hinner => simp
  | inBody hbody hpart hinner ih => exact ih

/-- The types on the way to a declared type are declared. -/
theorem of_prefix (h : n.Declares source chain) (houter : outer <+: chain) (hne : outer ≠ []) :
    n.Declares source outer := by
  induction h generalizing outer with
  | type hname =>
      obtain ⟨rest, rfl, hrest⟩ := (List.prefix_cons_iff.mp houter).resolve_left hne
      obtain rfl := List.prefix_nil.mp hrest
      exact .type hname
  | @member n body part name chain hname hbody hpart hinner ih =>
      obtain ⟨rest, rfl, hrest⟩ := (List.prefix_cons_iff.mp houter).resolve_left hne
      by_cases hempty : rest = []
      · exact hempty ▸ .type hname
      · exact .member hname hbody hpart (ih hrest hempty)
  | inBody hbody hpart hinner ih => exact .inBody hbody hpart (ih houter hne)

end Declares

/-- The declared types have names, and no name has a dot in it. -/
def HasPlainNames (source : List UInt8) (root : Node) : Prop :=
  ∀ chain, root.Holds source chain → ∀ name ∈ chain, name ≠ "" ∧ '.' ∉ name.toList

theorem Holds.ne_nil (h : root.Holds source chain) : chain ≠ [] := by
  obtain ⟨part, hpart, hdeclares⟩ := h
  exact hdeclares.ne_nil

theorem Holds.of_prefix (h : root.Holds source chain) (houter : outer <+: chain)
    (hne : outer ≠ []) : root.Holds source outer := by
  obtain ⟨part, hpart, hdeclares⟩ := h
  exact ⟨part, hpart, hdeclares.of_prefix houter hne⟩

end Node

/-! ## What a survey finds -/

namespace Survey

/-- A type of the given name is found. -/
def FindsType (s : Survey) (q : String) : Prop :=
  ∃ d, Registration.type d ∈ s.found ∧ d.qualifiedName = q

variable {a b : Survey} {q : String}

@[simp] theorem not_findsType_empty : ¬ empty.FindsType q := by
  simp [FindsType, empty]

theorem append_empty (a : Survey) : a ++ empty = a := by
  change a.andThen empty = a
  obtain ⟨found, fault⟩ := a
  cases fault with
  | some fault => rfl
  | none => simp [andThen, empty]

theorem findsType_one_type {d : TypeDecl} : (one (.type d)).FindsType q ↔ d.qualifiedName = q := by
  simp [FindsType, one]

theorem findsType_append :
    (a ++ b).FindsType q ↔ a.FindsType q ∨ a.fault = none ∧ b.FindsType q := by
  change (a.andThen b).FindsType q ↔ _
  unfold andThen
  cases hfault : a.fault with
  | some fault => simp
  | none =>
      simp only [FindsType, List.mem_append, or_and_right, exists_or, true_and]

theorem fault_append_eq_none : (a ++ b).fault = none ↔ a.fault = none ∧ b.fault = none := by
  change (a.andThen b).fault = none ↔ _
  unfold andThen
  cases hfault : a.fault with
  | some fault => simp [hfault]
  | none => simp

section

variable {α : Type} {x : Except Text.Utf8.Fault α} {onward : α → Survey}

theorem findsType_after :
    (after x onward).FindsType q ↔ ∃ a, x = .ok a ∧ (onward a).FindsType q := by
  cases x with
  | ok a => simp [after]
  | error fault => simp [after, FindsType]

theorem fault_after_eq_none :
    (after x onward).fault = none ↔ ∃ a, x = .ok a ∧ (onward a).fault = none := by
  cases x with
  | ok a => simp [after]
  | error fault => simp [after]

end

end Survey

namespace File

variable {f : File} {outer q : String} {n : Node} {nodes : List Node}

theorem not_findsType_methods {owner : String} (members : List Node) :
    ¬ (f.methods owner members).FindsType q := by
  fun_induction f.methods owner members with
  | case1 => simp
  | case2 n rest _ here ihChildren ihRest =>
      rw [Survey.findsType_append, not_or]
      refine ⟨?_, fun h => ihRest h.2⟩
      unfold here
      split
      · exact ihChildren
      · split
        · rw [Survey.findsType_after]
          rintro ⟨found, -, h⟩
          cases found with
          | none => simp at h
          | some m => simp [Survey.FindsType, Survey.one] at h
        · simp

theorem findsType_held {qualifiedName : String} : (f.held qualifiedName n).FindsType q ↔
    ∃ body, n.field? "body" = some body ∧
      (f.methods qualifiedName body.children).fault = none ∧
      (f.types qualifiedName body.children).FindsType q := by
  unfold held
  cases n.field? "body" with
  | none => simp
  | some body => simp [Survey.findsType_append, not_findsType_methods]

theorem fault_held_eq_none {qualifiedName : String} {body : Node}
    (hbody : n.field? "body" = some body) : (f.held qualifiedName n).fault = none ↔
      (f.methods qualifiedName body.children).fault = none ∧
      (f.types qualifiedName body.children).fault = none := by
  rw [held, hbody, Option.elim_some, Survey.fault_append_eq_none]

theorem findsType_declared : (f.declared outer n).FindsType q ↔
    ∃ nameNode name d, n.field? "name" = some nameNode ∧ nameNode.text f.source = .ok name ∧
      f.typeDecl (f.qualify outer name) n = .ok d ∧
      (f.qualify outer name = q ∨ (f.held (f.qualify outer name) n).FindsType q) := by
  unfold declared
  cases n.field? "name" with
  | none => simp
  | some nameNode =>
      simp only [Option.elim_some, Option.some.injEq, exists_eq_left', exists_and_left,
        Survey.findsType_after, Survey.findsType_append, Survey.findsType_one_type]
      refine exists_congr fun name => and_congr_right fun _ => exists_congr fun d => ?_
      refine and_congr_right fun hd => ?_
      rw [qualifiedName_of_typeDecl hd]
      simp [Survey.one]

theorem fault_declared_eq_none {nameNode : Node} (hname : n.field? "name" = some nameNode) :
    (f.declared outer n).fault = none ↔ ∃ name d, nameNode.text f.source = .ok name ∧
      f.typeDecl (f.qualify outer name) n = .ok d ∧
      (f.held (f.qualify outer name) n).fault = none := by
  rw [declared, hname, Option.elim_some]
  simp only [Survey.fault_after_eq_none, Survey.fault_append_eq_none, exists_and_left]
  refine exists_congr fun name => and_congr_right fun _ => exists_congr fun d => ?_
  exact and_congr_right fun _ => and_iff_right rfl

/-- A type that is found stands at the end of a chain. -/
theorem exists_declares_of_findsType (h : (f.types outer nodes).FindsType q) :
    ∃ n ∈ nodes, ∃ chain, n.Declares f.source chain ∧ chain.foldl f.qualify outer = q := by
  induction outer, nodes using File.types.induct f with
  | case1 outer =>
      rw [types] at h
      exact absurd h Survey.not_findsType_empty
  | case2 outer n rest _ ihBody ihChildren ihRest =>
      rw [types_cons, Survey.findsType_append] at h
      rcases h with h | ⟨-, h⟩
      · refine ⟨n, List.mem_cons_self, ?_⟩
        split at h
        next htype =>
          obtain ⟨nameNode, name, d, hnode, htext, -, h⟩ := findsType_declared.mp h
          have hname : n.IsTypeNamed f.source name :=
            ⟨List.contains_iff_mem.mp htype, nameNode, hnode, htext⟩
          rcases h with h | h
          · exact ⟨[name], .type hname, h⟩
          · obtain ⟨body, hbody, -, h⟩ := findsType_held.mp h
            obtain ⟨part, hpart, chain, hchain, hq⟩ := ihBody name body hbody h
            exact ⟨name :: chain, .member hname hbody hpart hchain, hq⟩
        next =>
          split at h
          next hbody =>
            obtain ⟨part, hpart, chain, hchain, hq⟩ := ihChildren h
            exact ⟨chain, .inBody (List.contains_iff_mem.mp hbody) hpart hchain, hq⟩
          next => exact absurd h Survey.not_findsType_empty
      · obtain ⟨m, hm, hchain⟩ := ihRest h
        exact ⟨m, List.mem_cons_of_mem n hm, hchain⟩

/-! ### What stands at the end of a chain is found -/

theorem types_singleton_of_declaration (htype : n.type ∈ typeDeclarations) :
    f.types outer [n] = f.declared outer n := by
  rw [types_cons, types, Survey.append_empty, if_pos (List.contains_iff_mem.mpr htype)]

theorem types_singleton_of_body (hbody : n.type ∈ typeBodies) :
    f.types outer [n] = f.types outer n.children := by
  have hdisjoint : ∀ type ∈ typeBodies, typeDeclarations.contains type = false := by decide
  rw [types_cons, types, Survey.append_empty, hdisjoint n.type hbody, if_neg Bool.false_ne_true,
    if_pos (List.contains_iff_mem.mpr hbody)]

/-- A survey that comes to no early end goes through each of the nodes. -/
theorem findsType_of_mem (hn : n ∈ nodes) (hfault : (f.types outer nodes).fault = none) :
    (f.types outer [n]).fault = none ∧
      ((f.types outer [n]).FindsType q → (f.types outer nodes).FindsType q) := by
  induction nodes with
  | nil => contradiction
  | cons m rest ih =>
      rw [types_cons, Survey.fault_append_eq_none] at hfault
      rw [types_cons f outer m rest, Survey.findsType_append]
      rcases List.mem_cons.mp hn with rfl | hn
      · rw [types_cons, types, Survey.append_empty]
        exact ⟨hfault.1, .inl⟩
      · obtain ⟨hn, hfinds⟩ := ih hn hfault.2
        exact ⟨hn, fun h => .inr ⟨hfault.1, hfinds h⟩⟩

theorem fault_declared_of_isTypeNamed {name : String} (hname : n.IsTypeNamed f.source name)
    (hfault : (f.declared outer n).fault = none) :
    (∀ q, f.qualify outer name = q ∨ (f.held (f.qualify outer name) n).FindsType q →
      (f.declared outer n).FindsType q) ∧ (f.held (f.qualify outer name) n).fault = none := by
  obtain ⟨-, nameNode, hnode, htext⟩ := hname
  obtain ⟨read, d, hread, hd, hheld⟩ := (fault_declared_eq_none hnode).mp hfault
  obtain rfl : name = read := Except.ok.inj (htext.symm.trans hread)
  exact ⟨fun q h => findsType_declared.mpr ⟨nameNode, name, d, hnode, htext, hd, h⟩, hheld⟩

/-- A survey that comes to no early end finds the type at the end of each chain. -/
theorem findsType_of_declares {chain : List String} (h : n.Declares f.source chain)
    (hn : n ∈ nodes) (hfault : (f.types outer nodes).fault = none) :
    (f.types outer nodes).FindsType (chain.foldl f.qualify outer) := by
  induction h generalizing outer nodes with
  | @type n name hname =>
      obtain ⟨hfault, hfinds⟩ := findsType_of_mem hn hfault
      apply hfinds
      rw [types_singleton_of_declaration hname.1] at hfault ⊢
      exact (fault_declared_of_isTypeNamed hname hfault).1 _ (.inl rfl)
  | @member n body part name chain hname hbody hpart hinner ih =>
      obtain ⟨hfault, hfinds⟩ := findsType_of_mem hn hfault
      apply hfinds
      rw [types_singleton_of_declaration hname.1] at hfault ⊢
      obtain ⟨hdeclared, hheld⟩ := fault_declared_of_isTypeNamed hname hfault
      have hinside := (fault_held_eq_none hbody).mp hheld
      exact hdeclared _ (.inr (findsType_held.mpr ⟨body, hbody, hinside.1, ih hpart hinside.2⟩))
  | @inBody n part chain hbody hpart hinner ih =>
      obtain ⟨hfault, hfinds⟩ := findsType_of_mem hn hfault
      apply hfinds
      rw [types_singleton_of_body hbody] at hfault ⊢
      exact ih hpart hfault

/-- The name that the survey gives to the type at the end of a chain. -/
theorem foldl_qualify_eq_ofChain (f : File) {chain : List String} (h : chain ≠ [])
    (hnames : ∀ name ∈ chain, name ≠ "") :
    chain.foldl f.qualify "" = QualifiedName.ofChain f.package chain := by
  induction chain using List.reverseRecOn with
  | nil => contradiction
  | append_singleton before name ih =>
      rw [List.foldl_concat]
      by_cases hbefore : before = []
      · subst hbefore
        rw [List.nil_append, QualifiedName.ofChain_singleton, QualifiedName.inside, qualify]
        by_cases hpackage : f.package.isEmpty = true
        · simp [hpackage]
        · simp [hpackage]
      · have hinner : ∀ name ∈ before, name ≠ "" := by
          intro name hname
          exact hnames name (List.mem_append_left _ hname)
        have houter : QualifiedName.ofChain f.package before ≠ "" :=
          QualifiedName.ofChain_ne_empty hbefore hinner
        rw [ih hbefore hinner, QualifiedName.ofChain_concat hbefore, qualify,
          if_pos (by simpa using houter)]

end File

/-! ## The survey of a source -/

section

variable {source : List UInt8} {root : Node} {q : String}

/-- Wherever a survey ends, a type that it finds has the name of its chain. -/
theorem exists_holds_of_findsType_survey (hnames : root.HasPlainNames source)
    (h : (survey source root).FindsType q) :
    ∃ package chain, root.package source = .ok package ∧ root.Holds source chain ∧
      QualifiedName.ofChain package chain = q := by
  obtain ⟨package, hpackage, h⟩ := Survey.findsType_after.mp h
  obtain ⟨imports, himports, h⟩ := Survey.findsType_after.mp h
  obtain ⟨part, hpart, chain, hchain, hq⟩ := File.exists_declares_of_findsType h
  have hholds : root.Holds source chain := ⟨part, hpart, hchain⟩
  refine ⟨package, chain, hpackage, hholds, ?_⟩
  rw [← hq, File.foldl_qualify_eq_ofChain _ hholds.ne_nil]
  intro name hname
  exact (hnames chain hholds name hname).1

/-- The types that a survey finds, if it comes to no early end, are those at the ends of chains. -/
theorem findsType_survey_iff (hnames : root.HasPlainNames source)
    (hfault : (survey source root).fault = none) :
    ∃ package, root.package source = .ok package ∧ ∀ q, (survey source root).FindsType q ↔
      ∃ chain, root.Holds source chain ∧ QualifiedName.ofChain package chain = q := by
  obtain ⟨package, hpackage, htypes⟩ := Survey.fault_after_eq_none.mp hfault
  obtain ⟨imports, himports, htypes⟩ := Survey.fault_after_eq_none.mp htypes
  refine ⟨package, hpackage, ?_⟩
  intro q
  constructor
  · intro h
    obtain ⟨read, chain, hread, hholds, hq⟩ := exists_holds_of_findsType_survey hnames h
    obtain rfl : package = read := Except.ok.inj (hpackage.symm.trans hread)
    exact ⟨chain, hholds, hq⟩
  · rintro ⟨chain, hholds, rfl⟩
    have hne : ∀ name ∈ chain, name ≠ "" := by
      intro name hname
      exact (hnames chain hholds name hname).1
    have hqualify := File.foldl_qualify_eq_ofChain ⟨source, package, imports⟩ hholds.ne_nil hne
    obtain ⟨part, hpart, hchain⟩ := hholds
    refine Survey.findsType_after.mpr ⟨package, hpackage, ?_⟩
    refine Survey.findsType_after.mpr ⟨imports, himports, ?_⟩
    rw [← hqualify]
    exact File.findsType_of_declares (f := ⟨source, package, imports⟩) hchain hpart htypes

end

end Source

end MethodSig
