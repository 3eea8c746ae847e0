import MethodSig.Batch.Context
import MethodSig.Proofs.Method.Consistency
import MethodSig.Proofs.Type.Suffix

/-!
# Resolved types are in normal form

What a text resolves to in a catalog is a primitive, a registered type, or an array of positive
dimensions over one of these, with a name that says so. Its name stands for it in every
namespace, so two types of one name are the same, and a conflict between the types of an argument
shows two different names.
-/

namespace MethodSig.Catalog

variable {c : Catalog} {namespaceName text : String} {d : Descriptor}

/-- The text stands for the type, given the catalog and the default namespace. -/
def ResolvesTo (c : Catalog) (namespaceName text : String) (d : Descriptor) : Prop :=
  ((c.context namespaceName).resolver.resolve? text).value = some d

/-- A primitive of the table, a registered type, or an array over a type that is itself in normal
form and no array. -/
inductive IsNormal (c : Catalog) : Descriptor → Prop
  | primitive {name : String} (h : name ∈ primitiveNames) : IsNormal c ⟨.primitive, name, none, 0⟩
  | declared {name : String} (h : name ∈ c.names) : IsNormal c ⟨.declared, name, none, 0⟩
  | array {e : Descriptor} {n : ℕ} (he : IsNormal c e) (hkind : e.kind ≠ .array) (hn : 1 ≤ n) :
      IsNormal c ⟨.array, e.name ++ Descriptor.dimensionText n, some e, n⟩

theorem IsElement.isNormal (h : c.IsElement d) : c.IsNormal d := by
  cases h with
  | primitive h => exact .primitive h
  | @declared name hlookup hne hprimitive =>
      obtain ⟨hregistered, hname⟩ := (lookup_eq_some_iff c _ _).mp hlookup
      have hdotted : name = QualifiedName.dotted name := congrArg Descriptor.name hname
      rw [← hdotted, contains_iff_mem_names] at hregistered
      exact .declared hregistered

theorem IsElement.kind_ne_array (h : c.IsElement d) : d.kind ≠ .array := by
  cases h with
  | primitive h => simp [Descriptor.primitive]
  | declared hlookup hne hprimitive => simp [Descriptor.named]

theorem IsCanonical.isNormal (h : c.IsCanonical d) : c.IsNormal d := by
  cases h with
  | element h => exact h.isNormal
  | array h n => exact .array h.isNormal h.kind_ne_array (Nat.succ_pos n)

theorem ResolvesTo.isCanonical (h : c.ResolvesTo namespaceName text d) : c.IsCanonical d :=
  isCanonical_of_resolveChars h

theorem IsCanonical.resolvesTo_name (hnames : c.NamesAreBases) (h : c.IsCanonical d) :
    c.ResolvesTo namespaceName d.name d :=
  h.resolve?_name hnames

/-- Types that texts resolve to are told apart by their names. -/
theorem IsCanonical.eq_of_name_eq {d' : Descriptor} (hnames : c.NamesAreBases)
    (h : c.IsCanonical d) (h' : c.IsCanonical d') (hname : d.name = d'.name) : d = d' := by
  have hd : c.ResolvesTo "" d.name d := h.resolvesTo_name hnames
  have hd' : c.ResolvesTo "" d.name d' := hname ▸ h'.resolvesTo_name hnames
  exact Option.some.inj (hd.symm.trans hd')

/-- What texts resolve to is in normal form, is what its name resolves to in every namespace, and
is told apart by its name. -/
theorem resolvesTo_canonical (hnames : c.NamesAreBases) :
    (∀ namespaceName text d, c.ResolvesTo namespaceName text d →
      c.IsNormal d ∧ ∀ other, c.ResolvesTo other d.name d) ∧
    (∀ namespaceName namespaceName' text text' d d', c.ResolvesTo namespaceName text d →
      c.ResolvesTo namespaceName' text' d' → d.name = d'.name → d = d') ∧
    ∀ (methods : List Method) (conflict : ArgumentConflict),
      (∀ a ∈ methods.flatMap Method.arguments, ∃ namespaceName text,
        c.ResolvesTo namespaceName text a.type) →
      checkConsistency methods = .error conflict →
      conflict.first.name ≠ conflict.second.name := by
  refine ⟨?_, ?_, ?_⟩
  · intro namespaceName text d h
    exact ⟨h.isCanonical.isNormal, fun other => h.isCanonical.resolvesTo_name hnames⟩
  · intro namespaceName namespaceName' text text' d d' h h' hname
    exact h.isCanonical.eq_of_name_eq hnames h'.isCanonical hname
  · intro methods conflict hresolved hconflict hname
    obtain ⟨hne, ⟨a, ha, -, hfirst⟩, b, hb, -, hsecond⟩ := isAmong_of_checkConsistency hconflict
    obtain ⟨_, _, ha⟩ := hresolved a ha
    obtain ⟨_, _, hb⟩ := hresolved b hb
    rw [hfirst] at ha
    rw [hsecond] at hb
    exact hne (ha.isCanonical.eq_of_name_eq hnames hb.isCanonical hname)

/-- A nested type is found under its name with a dollar sign, and so are arrays of it. -/
theorem resolvesTo_canonical_nested :
    let c := [⟨"p.Outer", "p", [], [], false, []⟩,
      ⟨"p.Outer.Item", "p", [], [], false, []⟩].foldl insert empty
    let d := Descriptor.arrayOver (.named "p.Outer.Item") 2
    c.NamesAreBases ∧ c.ResolvesTo "q" ("p.Outer$Item []" ++ "...") d ∧
      c.IsNormal d ∧ ∀ other, c.ResolvesTo other "p.Outer.Item[][]" d := by
  intro c d
  have hnames : c.NamesAreBases := by
    have hall : ∀ name ∈ ["p.Outer", "p.Outer.Item"], TypeText.IsBase name.toList := by decide
    exact hall
  have hknows := hnames.knowsNoBrackets "q"
  have hitem : c.ResolvesTo "q" "p.Outer$Item " (.named "p.Outer.Item") := by
    unfold ResolvesTo
    decide +kernel
  have hpair := hknows.value_resolve?_append (.inl rfl) "p.Outer$Item "
  have hdots := hknows.value_resolve?_append (.inr rfl) "p.Outer$Item []"
  rw [if_neg (by decide)] at hpair
  rw [if_neg (by decide)] at hdots
  have h : c.ResolvesTo "q" ("p.Outer$Item []" ++ "...") d :=
    hdots.trans (congrArg _ (hpair.trans (congrArg _ hitem)))
  obtain ⟨hnormal, hname⟩ := (resolvesTo_canonical hnames).1 _ _ d h
  exact ⟨hnames, h, hnormal, hname⟩

end MethodSig.Catalog
