import Mathlib.Data.List.Basic
import MethodSig.Catalog.Scope
import MethodSig.Proofs.Type.Text

/-!
# Resolved types can be resolved by their names

What a catalog resolves a text to is canonical: a primitive, a registered type, or an array over
one of them. The name of a canonical type resolves to that type, whatever the namespace.
-/

namespace MethodSig

/-- What a text that is not blank resolves to: the type that it names outright, or else an array of
what its base resolves to, or else what is found in the namespace. -/
theorem Resolver.value_resolveChars (r : Resolver) {text : List Char}
    (hne : TypeText.normalize text ≠ []) :
    (r.resolveChars text).value =
      match r.direct? (String.ofList (TypeText.normalize text)) with
      | some d => some d
      | none =>
        match TypeText.arraySuffix? (TypeText.normalize text) with
        | some (base, n) => (r.resolveChars base).value.map (·.wrap n)
        | none => (r.inNamespace (String.ofList (TypeText.normalize text))).value := by
  rw [resolveChars, List.isEmpty_eq_false_iff.mpr hne]
  simp only [Bool.false_eq_true, if_false]
  cases hdirect : r.direct? (String.ofList (TypeText.normalize text)) with
  | some found => rfl
  | none =>
      simp only
      split <;> simp_all

theorem Resolver.value_resolveChars_of_normalize_eq_nil (r : Resolver) {text : List Char}
    (hempty : TypeText.normalize text = []) : (r.resolveChars text).value = none := by
  rw [resolveChars, if_pos (List.isEmpty_iff.mpr hempty)]
  rfl

namespace Resolver

variable {r : Resolver}

/-- The lookup finds nothing under a name that holds a bracket. -/
def KnowsNoBrackets (r : Resolver) : Prop :=
  ∀ name : String, ¬ TypeText.NoBracket name.toList → r.lookup name = none

/-- A text with a bracket names nothing outright. -/
theorem KnowsNoBrackets.direct?_eq_none (hr : r.KnowsNoBrackets) {name : List Char}
    (h : ¬ TypeText.NoBracket name) : r.direct? (String.ofList name) = none := by
  have hprimitive : String.ofList name ∉ primitiveNames := by
    intro hmem
    have hall : ∀ name ∈ primitiveNames, TypeText.NoBracket name.toList := by decide
    have hname := hall _ hmem
    rw [String.toList_ofList] at hname
    exact h hname
  rw [direct?, if_neg (mt List.contains_iff_mem.mp hprimitive)]
  exact hr _ (by rwa [String.toList_ofList])

end Resolver

namespace Catalog

variable {c : Catalog} {namespaceName : String}

/-- A type without dimensions that a text can resolve to. -/
inductive IsElement (c : Catalog) : Descriptor → Prop where
  | primitive {name : String} (h : name ∈ primitiveNames) : IsElement c (.primitive name)
  | declared {name : String} (hlookup : c.lookup name = some (.named name)) (hne : name ≠ "")
      (hprimitive : name ∉ primitiveNames) : IsElement c (.named name)

/-- A type that a text can resolve to. -/
inductive IsCanonical (c : Catalog) : Descriptor → Prop where
  | element {d : Descriptor} (h : c.IsElement d) : IsCanonical c d
  | array {e : Descriptor} (h : c.IsElement e) (n : ℕ) : IsCanonical c (.arrayOver e (n + 1))

/-! ## What texts resolve to -/

theorem IsElement.wrap_eq {d : Descriptor} (h : c.IsElement d) (n : ℕ) :
    d.wrap n = .arrayOver d n := by
  cases h with
  | primitive h => rfl
  | declared hlookup hne hprimitive => rfl

theorem IsCanonical.wrap {d : Descriptor} (h : c.IsCanonical d) {n : ℕ} (hn : 0 < n) :
    c.IsCanonical (d.wrap n) := by
  obtain ⟨n, rfl⟩ := Nat.exists_eq_succ_of_ne_zero hn.ne'
  cases h with
  | element h =>
      rw [h.wrap_eq]
      exact .array h n
  | array h m => exact .array h (n + 1 + m)

theorem dotted_dotted (name : String) :
    QualifiedName.dotted (QualifiedName.dotted name) = QualifiedName.dotted name := by
  simp only [QualifiedName.dotted, String.toList_ofList, List.map_map]
  congr 1
  apply List.map_congr_left
  intro c _
  by_cases hc : c = '$' <;> simp [hc]

theorem dot_notMem_of_mem_primitiveNames {name : String} (h : name ∈ primitiveNames) :
    '.' ∉ name.toList := by
  have hnames : ∀ name ∈ primitiveNames, '.' ∉ name.toList := by decide
  exact hnames name h

/-- Only dollar signs are replaced by dots. -/
theorem dotted_eq_self_of_dollar_notMem {name : String} (h : '$' ∉ name.toList) :
    QualifiedName.dotted name = name := by
  rw [QualifiedName.dotted, ← String.toList_inj, String.toList_ofList]
  refine (List.map_congr_left ?_).trans (List.map_id _)
  intro c hc
  refine if_neg ?_
  rintro rfl
  exact h hc

/-- A name that has no dot once it is written with dots is left as it is. -/
theorem dotted_eq_self {name : String} (h : '.' ∉ (QualifiedName.dotted name).toList) :
    QualifiedName.dotted name = name := by
  rw [QualifiedName.dotted, String.toList_ofList] at h
  refine dotted_eq_self_of_dollar_notMem ?_
  intro hdollar
  exact h (List.mem_map.mpr ⟨'$', hdollar, rfl⟩)

theorem lookup_eq_some_iff (c : Catalog) (name : String) (d : Descriptor) :
    c.lookup name = some d ↔
      c.contains (QualifiedName.dotted name) = true ∧ d = .named (QualifiedName.dotted name) := by
  rw [lookup, Option.ite_none_right_eq_some, Option.some.injEq, eq_comm (a := d)]

/-- What is looked up under a name that is no primitive is a registered type. -/
theorem isElement_of_lookup {name : String} {d : Descriptor} (h : c.lookup name = some d)
    (hne : name ≠ "") (hprimitive : name ∉ primitiveNames) : c.IsElement d := by
  obtain ⟨hregistered, rfl⟩ := (lookup_eq_some_iff c name d).mp h
  refine .declared ?_ ?_ ?_
  · rw [lookup_eq_some_iff, dotted_dotted]
    exact ⟨hregistered, rfl⟩
  · intro hempty
    have := congrArg String.toList hempty
    simp [QualifiedName.dotted] at this
    exact hne this
  · intro hmem
    rw [dotted_eq_self (dot_notMem_of_mem_primitiveNames hmem)] at hmem
    exact hprimitive hmem

/-- A resolver that finds registered types only. -/
def FindsElements (c : Catalog) (r : Resolver) : Prop :=
  ∀ name d, name ≠ "" → name ∉ primitiveNames → r.lookup name = some d → c.IsElement d

theorem findsElements_lookup (c : Catalog) (namespaceName : String) :
    c.FindsElements ⟨c.lookup, namespaceName⟩ :=
  fun _ _ hne hprimitive h => isElement_of_lookup h hne hprimitive

namespace FindsElements

variable {r : Resolver}

theorem isCanonical_of_direct? (hr : c.FindsElements r) {name : String} {d : Descriptor}
    (hne : name ≠ "") (h : r.direct? name = some d) : c.IsCanonical d := by
  unfold Resolver.direct? at h
  split at h
  next hprimitive =>
    rw [Option.some.injEq] at h
    exact h ▸ .element (.primitive (List.contains_iff_mem.mp hprimitive))
  next hprimitive =>
    refine .element (hr name d hne ?_ h)
    simpa using hprimitive

theorem isCanonical_of_inNamespace (hr : c.FindsElements r) {name : String} {d : Descriptor}
    (h : (r.inNamespace name).value = some d) : c.IsCanonical d := by
  unfold Resolver.inNamespace at h
  split at h
  next => simp at h
  next =>
    simp only [Logged.value_bind, Logged.value_pure] at h
    have hdot : '.' ∈ (r.namespaceName ++ "." ++ name).toList := by simp
    refine .element (hr _ d ?_ ?_ h)
    · intro hempty
      rw [hempty] at hdot
      simp at hdot
    · intro hmem
      exact dot_notMem_of_mem_primitiveNames hmem hdot

theorem isCanonical_of_resolveChars (hr : c.FindsElements r) {text : List Char} {d : Descriptor}
    (h : (r.resolveChars text).value = some d) : c.IsCanonical d := by
  induction hlength : text.length using Nat.strong_induction_on generalizing text d with
  | h length ih =>
      by_cases hempty : TypeText.normalize text = []
      · rw [Resolver.value_resolveChars_of_normalize_eq_nil _ hempty] at h
        contradiction
      · rw [Resolver.value_resolveChars _ hempty] at h
        split at h
        next found hdirect =>
          rw [Option.some.injEq] at h
          subst h
          refine hr.isCanonical_of_direct? ?_ hdirect
          simpa [← String.toList_inj] using hempty
        next =>
          split at h
          next base n hsuffix =>
            obtain ⟨e, he, rfl⟩ := Option.map_eq_some_iff.mp h
            have hshorter := TypeText.length_of_arraySuffix? hsuffix
            have hpos := TypeText.dimensions_pos_of_arraySuffix? hsuffix
            have hnormal := TypeText.length_normalize_le text
            exact (ih base.length (by omega) he rfl).wrap hpos
          next => exact hr.isCanonical_of_inNamespace h

end FindsElements

theorem isCanonical_of_resolveChars {text : List Char} {d : Descriptor}
    (h : (Resolver.resolveChars ⟨c.lookup, namespaceName⟩ text).value = some d) :
    c.IsCanonical d :=
  (findsElements_lookup c namespaceName).isCanonical_of_resolveChars h

/-! ## Resolving names -/

/-- Every registered name is a name without dimensions. -/
def NamesAreBases (c : Catalog) : Prop :=
  ∀ name ∈ c.names, TypeText.IsBase name.toList

theorem contains_iff_mem_names (c : Catalog) (name : String) :
    c.contains name = true ↔ name ∈ c.names := by
  rw [contains, get?, List.find?_isSome, names, List.mem_map]
  simp only [decide_eq_true_eq]

theorem isBase_primitive {name : String} (h : name ∈ primitiveNames) :
    TypeText.IsBase name.toList := by
  have hall : ∀ name ∈ primitiveNames, TypeText.IsBase name.toList := by decide
  exact hall name h

theorem IsElement.isBase {d : Descriptor} (hnames : c.NamesAreBases) (h : c.IsElement d) :
    TypeText.IsBase d.name.toList := by
  cases h with
  | primitive h => exact isBase_primitive h
  | @declared name hlookup hne hprimitive =>
      obtain ⟨hregistered, hname⟩ := (lookup_eq_some_iff c _ _).mp hlookup
      rw [hname]
      exact hnames _ ((contains_iff_mem_names c _).mp hregistered)

theorem IsElement.name_ne_empty {d : Descriptor} (h : c.IsElement d) : d.name.toList ≠ [] := by
  cases h with
  | @primitive name h =>
      have hnames : ∀ name ∈ primitiveNames, name.toList ≠ [] := by decide
      exact hnames name h
  | declared hlookup hne hprimitive =>
      intro hempty
      exact hne (String.toList_inj.mp hempty)

theorem IsElement.direct?_name {d : Descriptor} (h : c.IsElement d) :
    Resolver.direct? ⟨c.lookup, namespaceName⟩ d.name = some d := by
  cases h with
  | primitive h => exact if_pos (List.contains_iff_mem.mpr h)
  | declared hlookup hne hprimitive =>
      exact (if_neg (mt List.contains_iff_mem.mp hprimitive)).trans hlookup

theorem IsElement.resolveChars_name {d : Descriptor} (hnames : c.NamesAreBases)
    (h : c.IsElement d) :
    (Resolver.resolveChars ⟨c.lookup, namespaceName⟩ d.name.toList).value = some d := by
  have hnormal := (h.isBase hnames).normalize_eq_self
  rw [Resolver.value_resolveChars _ (by rw [hnormal]; exact h.name_ne_empty), hnormal,
    String.ofList_toList, h.direct?_name]

theorem NamesAreBases.knowsNoBrackets (hnames : c.NamesAreBases) (namespaceName : String) :
    Resolver.KnowsNoBrackets ⟨c.lookup, namespaceName⟩ := by
  intro name hname
  refine if_neg ?_
  intro hregistered
  have hbase := hnames _ ((contains_iff_mem_names c _).mp hregistered)
  refine hname ?_
  intro d hd
  by_cases hdollar : d = '$'
  · subst hdollar
    decide
  · refine hbase.noBracket d ?_
    rw [QualifiedName.dotted, String.toList_ofList]
    exact List.mem_map.mpr ⟨d, hd, if_neg hdollar⟩

/-- The name of a canonical type resolves to that type. -/
theorem IsCanonical.resolve?_name {d : Descriptor} (hnames : c.NamesAreBases)
    (h : c.IsCanonical d) :
    (Resolver.resolve? ⟨c.lookup, namespaceName⟩ d.name).value = some d := by
  cases h with
  | element h => exact h.resolveChars_name hnames
  | @array e h n =>
      have hbase := h.isBase hnames
      have hnormal := hbase.normalize_append_dimensionText (n + 1)
      have hbracket : ¬ TypeText.NoBracket
          (e.name.toList ++ (Descriptor.dimensionText (n + 1)).toList) := by
        intro hall
        have := hall '[' (by simp [TypeText.dimensionText_succ])
        contradiction
      rw [Resolver.resolve?, TypeText.toList_name_arrayOver, Resolver.value_resolveChars, hnormal,
        (hnames.knowsNoBrackets namespaceName).direct?_eq_none hbracket]
      · simp only [hbase.arraySuffix?_append_dimensionText h.name_ne_empty,
          h.resolveChars_name hnames, Option.map_some, h.wrap_eq]
      · rw [hnormal, TypeText.dimensionText_succ]
        simp

end Catalog

end MethodSig
