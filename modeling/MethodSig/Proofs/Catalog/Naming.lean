import MethodSig.Proofs.Catalog.Nesting
import MethodSig.Proofs.Type.Canonical

/-!
# Naming registered types

A type is registered under its name as the source has it. Where a text is resolved, its blanks are
removed and its dollar signs are read as dots before anything is looked up. So the name of a
registered type stands for the type exactly if there are no such characters in it.
-/

namespace MethodSig

open Source Text

/-- A name that a source may give to a type. Dollar signs are allowed. -/
structure IsTypeName (s : String) : Prop where
  ne_empty : s ≠ ""
  chars : ∀ c ∈ s.toList, c ≠ '.' ∧ TypeText.isBracket c = false ∧ isBlank c = false
  notPrimitive : s ∉ primitiveNames

instance (s : String) : Decidable (IsTypeName s) :=
  decidable_of_iff (s ≠ "" ∧ s.toList.all (fun c => decide (c ≠ '.' ∧
      TypeText.isBracket c = false ∧ isBlank c = false)) = true ∧ s ∉ primitiveNames) <| by
    simp only [List.all_eq_true, decide_eq_true_eq]
    exact ⟨fun ⟨hne, hchars, hprimitive⟩ => ⟨hne, hchars, hprimitive⟩,
      fun ⟨hne, hchars, hprimitive⟩ => ⟨hne, hchars, hprimitive⟩⟩

/-- The declared types have names that sources may give to types. -/
def Source.Node.HasTypeNames (source : List UInt8) (root : Node) : Prop :=
  ∀ chain, root.Holds source chain → ∀ name ∈ chain, IsTypeName name

theorem Source.Node.HasTypeNames.hasPlainNames {source : List UInt8} {root : Node}
    (h : root.HasTypeNames source) : root.HasPlainNames source := by
  intro chain hchain name hname
  refine ⟨(h chain hchain name hname).ne_empty, ?_⟩
  intro hdot
  exact ((h chain hchain name hname).chars '.' hdot).1 rfl

/-! ## Texts that end in the name of a type -/

namespace QualifiedName

/-- The text is the name of a type, with a text that ends in a dot in front of it or without. -/
def EndsInTypeName (q : String) : Prop :=
  ∃ before name, q.toList = before ++ name.toList ∧ IsTypeName name ∧
    (before = [] ∨ '.' ∈ before)

theorem endsInTypeName_inside {outer name : String} (h : IsTypeName name) :
    EndsInTypeName (inside outer name) := by
  unfold inside
  split
  · exact ⟨[], name, rfl, h, .inl rfl⟩
  · exact ⟨outer.toList ++ ['.'], name, by simp, h, .inr (by simp)⟩

theorem endsInTypeName_ofChain {package : String} {chain : List String} (h : chain ≠ [])
    (hnames : ∀ name ∈ chain, IsTypeName name) : EndsInTypeName (ofChain package chain) := by
  rcases List.eq_nil_or_concat chain with rfl | ⟨before, name, rfl⟩
  · contradiction
  · have hname : IsTypeName name := hnames name (by simp)
    rw [List.concat_eq_append]
    by_cases hbefore : before = []
    · rw [hbefore, List.nil_append, ofChain_singleton]
      exact endsInTypeName_inside hname
    · rw [ofChain_concat hbefore]
      exact ⟨(ofChain package before).toList ++ ['.'], name, by simp, hname, .inr (by simp)⟩

namespace EndsInTypeName

variable {q : String}

theorem removeBlanks_eq (h : EndsInTypeName q) : ∃ before name,
    removeBlanks q.toList = before ++ name.toList ∧ IsTypeName name ∧
      (before = [] ∨ '.' ∈ before) := by
  obtain ⟨before, name, hq, hname, hbefore⟩ := h
  refine ⟨removeBlanks before, name, ?_, hname, ?_⟩
  · rw [hq, removeBlanks_append, removeBlanks_eq_self fun c hc => (hname.chars c hc).2.2]
  · refine hbefore.imp ?_ (mem_removeBlanks_iff (by decide)).mpr
    rintro rfl
    rfl

/-- Without its blanks the text ends neither in a dot nor in a bracket. -/
theorem removeBlanks_ne_append (h : EndsInTypeName q) {c : Char} (s : List Char)
    (hc : c = '.' ∨ TypeText.isBracket c = true) : removeBlanks q.toList ≠ s ++ [c] := by
  obtain ⟨before, name, hq, hname, -⟩ := h.removeBlanks_eq
  intro heq
  have hne : name.toList ≠ [] := mt String.toList_eq_nil_iff.mp hname.ne_empty
  have hlast := congrArg List.getLast? heq
  rw [hq, List.getLast?_append_of_ne_nil _ hne, List.getLast?_concat] at hlast
  obtain ⟨hdot, hbracket, -⟩ := hname.chars c (List.mem_of_getLast? hlast)
  rcases hc with rfl | hc
  · exact hdot rfl
  · rw [hbracket] at hc
    contradiction

theorem normalize_eq (h : EndsInTypeName q) :
    TypeText.normalize q.toList = removeBlanks q.toList := by
  apply TypeText.normalize_of_not_suffix
  rintro ⟨before, heq⟩
  refine h.removeBlanks_ne_append (before ++ ['.', '.']) (.inl rfl) ?_
  rw [← heq]
  simp

theorem arraySuffix?_eq_none (h : EndsInTypeName q) :
    TypeText.arraySuffix? (removeBlanks q.toList) = none := by
  cases hsuffix : TypeText.arraySuffix? (removeBlanks q.toList) with
  | none => rfl
  | some found =>
      obtain ⟨base, n⟩ := found
      obtain ⟨-, -, hn, heq⟩ := TypeText.arraySuffix?_eq_some_iff.mp hsuffix
      obtain ⟨n, rfl⟩ := Nat.exists_eq_succ_of_ne_zero hn.ne'
      rw [Nat.succ_eq_add_one, TypeText.dimensionText_succ_eq_append] at heq
      refine absurd ?_ (h.removeBlanks_ne_append
        (base ++ (Descriptor.dimensionText n).toList ++ ['[']) (c := ']') (.inr rfl))
      rw [heq]
      simp

theorem notMem_primitiveNames (h : EndsInTypeName q) :
    String.ofList (removeBlanks q.toList) ∉ primitiveNames := by
  obtain ⟨before, name, hq, hname, hbefore⟩ := h.removeBlanks_eq
  rcases hbefore with rfl | hdot
  · rw [hq, List.nil_append, String.ofList_toList]
    exact hname.notPrimitive
  · intro hprimitive
    refine Catalog.dot_notMem_of_mem_primitiveNames hprimitive ?_
    rw [String.toList_ofList, hq]
    exact List.mem_append_left _ hdot

theorem removeBlanks_ne_nil (h : EndsInTypeName q) : removeBlanks q.toList ≠ [] := by
  obtain ⟨before, name, hq, hname, -⟩ := h.removeBlanks_eq
  rw [hq]
  refine List.append_ne_nil_of_right_ne_nil before ?_
  exact mt String.toList_eq_nil_iff.mp hname.ne_empty

end EndsInTypeName

end QualifiedName

/-! ## Resolving registered names -/

namespace Catalog

variable {c : Catalog} {namespaceName q : String}

/-- The names that are looked up for the name of a type: the name without blanks, and if there is
no dot in it the one in the default namespace, both with dots in the place of dollar signs. -/
def lookedUp (namespaceName q : String) : List String :=
  let written := String.ofList (removeBlanks q.toList)
  (written :: if '.' ∈ written.toList then [] else defaultNames namespaceName written).map
    QualifiedName.dotted

theorem lookup_eq_find? (c : Catalog) (name : String) :
    c.lookup name = ([QualifiedName.dotted name].find? c.contains).map .named := by
  rw [lookup, List.find?_cons]
  cases c.contains (QualifiedName.dotted name) with
  | true => rfl
  | false => rfl

theorem value_inNamespace (c : Catalog) (namespaceName name : String) :
    ((c.context namespaceName).resolver.inNamespace name).value =
      (((if '.' ∈ name.toList then [] else defaultNames namespaceName name).map
        QualifiedName.dotted).find? c.contains).map .named := by
  rw [Resolver.inNamespace, String.contains_char_eq, defaultNames]
  by_cases hdot : '.' ∈ name.toList
  · rw [decide_eq_true hdot, if_pos hdot]
    rfl
  · rw [decide_eq_false hdot, if_neg hdot]
    change (if namespaceName.isEmpty = true then _ else _ : Logged _).value = _
    by_cases hempty : namespaceName.isEmpty = true
    · simp [hempty]
    · rw [if_neg hempty, if_neg hempty]
      exact lookup_eq_find? c _

theorem value_resolve?_of_endsInTypeName (h : QualifiedName.EndsInTypeName q) :
    ((c.context namespaceName).resolver.resolve? q).value =
      ((lookedUp namespaceName q).find? c.contains).map .named := by
  have hne : TypeText.normalize q.toList ≠ [] := h.normalize_eq ▸ h.removeBlanks_ne_nil
  have hdirect : (c.context namespaceName).resolver.direct?
      (String.ofList (removeBlanks q.toList)) =
        c.lookup (String.ofList (removeBlanks q.toList)) :=
    if_neg (mt List.contains_iff_mem.mp h.notMem_primitiveNames)
  rw [Resolver.resolve?, Resolver.value_resolveChars _ hne, h.normalize_eq, hdirect,
    h.arraySuffix?_eq_none, lookedUp, List.map_cons, List.find?_cons, lookup]
  cases c.contains (QualifiedName.dotted (String.ofList (removeBlanks q.toList))) with
  | true => rfl
  | false => exact value_inNamespace c namespaceName _

/-- A name with a dot is not looked up in the namespace. -/
theorem eq_dotted_of_mem_lookedUp (h : q ∈ lookedUp namespaceName q) :
    q = QualifiedName.dotted (String.ofList (removeBlanks q.toList)) := by
  rw [lookedUp, List.map_cons, List.mem_cons] at h
  refine h.resolve_right ?_
  intro h
  obtain ⟨name, hname, hdotted⟩ := List.mem_map.mp h
  split at hname
  · exact absurd hname List.not_mem_nil
  next hdot =>
    have hname : '.' ∈ name.toList := by
      unfold defaultNames at hname
      split at hname
      · exact absurd hname List.not_mem_nil
      · rw [List.mem_singleton.mp hname]
        simp
    have hq : '.' ∈ q.toList := by
      rw [← hdotted, QualifiedName.dotted, String.toList_ofList]
      exact List.mem_map.mpr ⟨'.', hname, by decide⟩
    rw [String.toList_ofList, mem_removeBlanks_iff (by decide)] at hdot
    exact hdot hq

theorem chars_dotted {s : List Char} (h : ∀ ch ∈ s, isBlank ch = false) :
    ∀ ch ∈ (QualifiedName.dotted (String.ofList s)).toList, ch ≠ '$' ∧ isBlank ch = false := by
  rw [QualifiedName.dotted, String.toList_ofList, String.toList_ofList, List.forall_mem_map]
  intro ch hch
  split
  · decide
  next hdollar => exact ⟨hdollar, h ch hch⟩

/-- A registered name that ends in that of a type stands for the type exactly if no character of it
is changed before it is looked up. -/
theorem resolvesTo_named_iff (h : QualifiedName.EndsInTypeName q) (hq : q ∈ c.names) :
    c.ResolvesTo namespaceName q (.named q) ↔ ∀ ch ∈ q.toList, ch ≠ '$' ∧ isBlank ch = false := by
  rw [ResolvesTo, value_resolve?_of_endsInTypeName h]
  constructor
  · intro hresolves
    obtain ⟨name, hfound, hname⟩ := Option.map_eq_some_iff.mp hresolves
    obtain rfl : name = q := congrArg Descriptor.name hname
    have hblank : ∀ ch ∈ removeBlanks name.toList, isBlank ch = false := by
      intro ch hch
      simpa using List.of_mem_filter hch
    rw [eq_dotted_of_mem_lookedUp (List.mem_of_find?_eq_some hfound)]
    exact chars_dotted hblank
  · intro hchars
    have hblank : ∀ ch ∈ q.toList, isBlank ch = false := fun ch hch => (hchars ch hch).2
    have hdollar : '$' ∉ q.toList := fun hmem => (hchars '$' hmem).1 rfl
    rw [lookedUp, removeBlanks_eq_self hblank, String.ofList_toList, List.map_cons,
      dotted_eq_self_of_dollar_notMem hdollar, List.find?_cons,
      (contains_iff_mem_names c q).mpr hq]
    rfl

/-- Every type that a scan registers, on any catalog and wherever the scan ends, is looked up under
its name without blanks and with dots for dollar signs. So its name stands for it exactly if there
are neither in it. -/
theorem resolve?_registered {before : Catalog} {source : List UInt8} {root : Node}
    (hnames : root.HasTypeNames source) (hscan : (before.scanTree source root).value.catalog = c)
    (hq : q ∈ (empty.scanTree source root).value.catalog.names) :
    (c.ResolvesTo namespaceName q (.named q) ↔ ∀ ch ∈ q.toList, ch ≠ '$' ∧ isBlank ch = false) ∧
      ((c.context namespaceName).resolver.resolve? q).value =
        ((lookedUp namespaceName q).find? c.contains).map .named := by
  obtain ⟨package, chain, hpackage, hchain, rfl⟩ :=
    exists_holds_of_findsType_survey hnames.hasPlainNames (mem_names_scanTree.mp hq)
  have hends : QualifiedName.EndsInTypeName (QualifiedName.ofChain package chain) :=
    QualifiedName.endsInTypeName_ofChain hchain.ne_nil (hnames chain hchain)
  have hregistered : QualifiedName.ofChain package chain ∈ c.names := by
    rw [← hscan, (scanTree_merge before source root).1, names_merge, List.mem_append]
    by_cases hbefore : QualifiedName.ofChain package chain ∈ before.names
    · exact .inl hbefore
    · exact .inr (List.mem_filter.mpr ⟨hq, decide_eq_true hbefore⟩)
  constructor
  · exact resolvesTo_named_iff hends hregistered
  · exact value_resolve?_of_endsInTypeName hends

/-- A class behind the constants of an enumeration can be named. -/
theorem resolve?_registered_enumeration :
    Enumeration.tree.HasTypeNames Enumeration.text ∧
      "p.A.B" ∈ (empty.scanTree Enumeration.text Enumeration.tree).value.catalog.names ∧
      (core.scanTree Enumeration.text Enumeration.tree).value.catalog.ResolvesTo "java.lang"
        "p.A.B" (.named "p.A.B") := by
  have hnames : Enumeration.tree.HasTypeNames Enumeration.text := by
    intro chain hchain
    rcases Enumeration.holds_tree_iff.mp hchain with rfl | rfl
    · decide
    · decide
  have hregistered :
      "p.A.B" ∈ (empty.scanTree Enumeration.text Enumeration.tree).value.catalog.names := by
    decide +kernel
  have hchars : ∀ ch ∈ "p.A.B".toList, ch ≠ '$' ∧ isBlank ch = false := by
    have hall : "p.A.B".toList.all (fun ch => decide (ch ≠ '$') && !isBlank ch) = true := by decide
    intro ch hch
    simpa using List.all_eq_true.mp hall ch hch
  exact ⟨hnames, hregistered, (resolve?_registered hnames rfl hregistered).1.mpr hchars⟩

/-- A class with a dollar sign in its name, in a package of one segment. -/
def dollarText : List UInt8 :=
  Text.Utf8.encode "package p;class A$B\x7b\x7d"

/-- The syntax tree of the class without its keywords and punctuation. -/
def dollarTree : Node :=
  ⟨"program", true, 0, 21, none, [
    ⟨"package_declaration", true, 0, 10, none, [⟨"identifier", true, 8, 9, none, []⟩]⟩,
    ⟨"class_declaration", true, 10, 21, none, [
      ⟨"identifier", true, 16, 19, some "name", []⟩,
      ⟨"class_body", true, 19, 21, some "body", []⟩]⟩]⟩

/-- The class is registered, and its name stands for nothing. -/
theorem resolve?_dollar :
    IsTypeName "A$B" ∧
      (empty.scanTree dollarText dollarTree).value.catalog.names = ["p.A$B"] ∧
      (((empty.scanTree dollarText dollarTree).value.catalog.context "java.lang").resolver.resolve?
        "p.A$B").value = none := by
  have hname : IsTypeName "A$B" := by decide
  have hends : QualifiedName.EndsInTypeName "p.A$B" := by
    change QualifiedName.EndsInTypeName (QualifiedName.inside "p" "A$B")
    exact QualifiedName.endsInTypeName_inside hname
  refine ⟨hname, by decide +kernel, ?_⟩
  rw [value_resolve?_of_endsInTypeName hends]
  decide +kernel

end Catalog

end MethodSig
