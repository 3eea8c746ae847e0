import MethodSig.Catalog.Core
import MethodSig.Proofs.Signature.Rendered
import MethodSig.Proofs.Type.Resolver

/-!
# Type names in signatures

Where the registered names are dot-separated identifiers, the name of a canonical type reads as
one type text.
-/

namespace MethodSig

/-- A text made of identifiers with dots between them, none of them a modifier. -/
structure QualifiedName.IsQualified (s : List Char) : Prop where
  ne_nil : s ≠ []
  chars : ∀ c ∈ s, Signature.insideIdentifier c = true ∨ c = '.'
  noModifier : Signature.NoModifier s
  noDotAtEnd : s.getLast? ≠ some '.'

namespace QualifiedName

theorem isQualified_of_isName {s : List Char} (h : Signature.IsName s) : IsQualified s := by
  have hinside := Signature.insideIdentifier_of_mem h.1
  refine ⟨h.ne_nil, fun c hc => Or.inl (hinside c hc), h.noModifier, ?_⟩
  intro hlast
  have := hinside '.' (List.mem_of_getLast? hlast)
  contradiction

theorem isQualified_intercalate {parts : List (List Char)} (hne : parts ≠ [])
    (h : ∀ part ∈ parts, Signature.IsName part) : IsQualified (['.'].intercalate parts) := by
  induction parts with
  | nil => contradiction
  | cons p parts ih =>
      obtain ⟨hp, hparts⟩ := List.forall_mem_cons.mp h
      cases parts with
      | nil => simpa using isQualified_of_isName hp
      | cons q parts =>
          have hrest := ih (by simp) hparts
          have hhead := isQualified_of_isName hp
          rw [List.intercalate_cons_cons, List.append_assoc, List.singleton_append]
          refine ⟨by simp, ?_, ?_, ?_⟩
          · refine List.forall_mem_append.mpr ⟨hhead.chars, ?_⟩
            exact List.forall_mem_cons.mpr ⟨Or.inr rfl, hrest.chars⟩
          · rw [Signature.noModifier_append_cons_iff (by decide)]
            exact ⟨hhead.noModifier, hrest.noModifier⟩
          · obtain ⟨c, s, hs⟩ := List.exists_cons_of_ne_nil hrest.ne_nil
            have hlast := hrest.noDotAtEnd
            rw [hs] at hlast ⊢
            rw [List.getLast?_append_cons, List.getLast?_cons_cons]
            exact hlast

theorem isQualified_of_splitOn {s : List Char}
    (h : ∀ part ∈ s.splitOn '.', Signature.IsName part) : IsQualified s := by
  have hparts := isQualified_intercalate (List.splitOn_ne_nil '.' s) h
  rwa [List.intercalate_splitOn] at hparts

namespace IsQualified

variable {s : List Char}

theorem isTypeText (h : IsQualified s) : Signature.IsTypeText s := by
  refine ⟨h.ne_nil, ?_, h.noModifier⟩
  intro c hc
  refine (h.chars c hc).imp_right ?_
  rintro rfl
  decide

theorem isBase (h : IsQualified s) : TypeText.IsBase s := by
  refine ⟨h.isTypeText.isBlank_eq_false, ?_, ?_⟩
  · intro c hc
    rcases h.chars c hc with hinside | rfl
    · by_contra hbracket
      rw [Bool.not_eq_false, TypeText.isBracket, Bool.or_eq_true, decide_eq_true_eq,
        decide_eq_true_eq] at hbracket
      rcases hbracket with rfl | rfl
      · contradiction
      · contradiction
    · decide
  · rintro ⟨before, rfl⟩
    apply h.noDotAtEnd
    simp

end IsQualified

end QualifiedName

namespace Catalog

variable {c : Catalog}

/-- Every registered name is made of dot-separated identifiers that are no modifiers. -/
def NamesAreQualified (c : Catalog) : Prop :=
  ∀ name ∈ c.names, ∀ part ∈ name.toList.splitOn '.', Signature.IsName part

instance (c : Catalog) : Decidable c.NamesAreQualified :=
  inferInstanceAs (Decidable (∀ name ∈ c.names, ∀ part ∈ name.toList.splitOn '.',
    Signature.IsName part))

theorem namesAreQualified_core : Catalog.core.NamesAreQualified := by
  decide +kernel

theorem NamesAreQualified.namesAreBases (h : c.NamesAreQualified) : c.NamesAreBases :=
  fun name hname => (QualifiedName.isQualified_of_splitOn (h name hname)).isBase

theorem IsElement.isTypeText_name {d : Descriptor} (hnames : c.NamesAreQualified)
    (h : c.IsElement d) : Signature.IsTypeText d.name.toList := by
  cases h with
  | @primitive name h =>
      have hall : ∀ name ∈ primitiveNames, Signature.IsName name.toList := by decide
      exact (QualifiedName.isQualified_of_isName (hall name h)).isTypeText
  | @declared name hlookup hne hprimitive =>
      obtain ⟨hregistered, hname⟩ := (lookup_eq_some_iff c _ _).mp hlookup
      rw [hname]
      have hmem := (contains_iff_mem_names c _).mp hregistered
      exact (QualifiedName.isQualified_of_splitOn (hnames _ hmem)).isTypeText

/-- The name of a canonical type can stand in a signature. -/
theorem IsCanonical.isTypeText_name {d : Descriptor} (hnames : c.NamesAreQualified)
    (h : c.IsCanonical d) : Signature.IsTypeText d.name.toList := by
  cases h with
  | element h => exact h.isTypeText_name hnames
  | @array e h n =>
      have helement := h.isTypeText_name hnames
      have hmodifier (m : ℕ) :
          Signature.NoModifier (e.name.toList ++ (Descriptor.dimensionText m).toList) := by
        induction m with
        | zero => simpa [Descriptor.dimensionText] using helement.noModifier
        | succ m ih =>
            rw [TypeText.dimensionText_succ_eq_append, ← List.append_assoc,
              Signature.noModifier_append_cons_iff (by decide)]
            exact ⟨ih, by decide⟩
      rw [TypeText.toList_name_arrayOver]
      refine ⟨by simp [helement.ne_nil], ?_, hmodifier (n + 1)⟩
      refine List.forall_mem_append.mpr ⟨helement.chars, ?_⟩
      intro c hc
      exact Or.inr (List.mem_cons_of_mem '.' (TypeText.mem_dimensionText hc))

end Catalog

end MethodSig
