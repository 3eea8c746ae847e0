import Mathlib.Data.List.Infix
import Mathlib.Logic.Function.Iterate
import MethodSig.Proofs.Text.Spacing
import MethodSig.Proofs.Type.Resolver

/-!
# Dimensions behind a type text

A pair of brackets or three dots behind a type text stand for one dimension more, for lookups that
know no name with a bracket. There is one exception: behind an array text that ends in three dots
nothing further is read.
-/

namespace MethodSig

/-! ## Wrapping -/

namespace Descriptor

/-- The innermost element type of an array, and any other type itself. -/
def element (d : Descriptor) : Descriptor :=
  match d.kind, d.component with
  | .array, some e => e
  | _, _ => d

/-- The number of dimensions over the innermost element type. -/
def depth (d : Descriptor) : ℕ :=
  match d.kind, d.component with
  | .array, some _ => d.dimensions
  | _, _ => 0

theorem wrap_eq_arrayOver (d : Descriptor) (n : ℕ) :
    d.wrap n = arrayOver d.element (n + d.depth) := by
  obtain ⟨kind, name, component, dimensions⟩ := d
  cases kind <;> cases component <;> rfl

theorem element_wrap (d : Descriptor) (n : ℕ) : (d.wrap n).element = d.element := by
  rw [wrap_eq_arrayOver]
  rfl

theorem depth_wrap (d : Descriptor) (n : ℕ) : (d.wrap n).depth = d.depth + n := by
  rw [wrap_eq_arrayOver, Nat.add_comm]
  rfl

theorem wrap_wrap (d : Descriptor) (m n : ℕ) : (d.wrap m).wrap n = d.wrap (m + n) := by
  rw [wrap_eq_arrayOver, element_wrap, depth_wrap, wrap_eq_arrayOver]
  congr 1
  omega

/-- One dimension after another adds up over the same element. -/
theorem element_and_depth_iterate_wrap (d : Descriptor) (n : ℕ) :
    ((wrap · 1)^[n] d).element = d.element ∧ ((wrap · 1)^[n] d).depth = d.depth + n := by
  induction n with
  | zero => exact ⟨rfl, rfl⟩
  | succ n ih =>
      rw [Function.iterate_succ_apply', element_wrap, depth_wrap, ih.1, ih.2]
      exact ⟨rfl, rfl⟩

end Descriptor

/-! ## Texts with dimensions -/

namespace TypeText

/-- One pair of brackets more is one dimension more of a text that has some already. -/
theorem arraySuffix?_append_pair {s : List Char} (hs : ¬ NoBracket s) :
    arraySuffix? (s ++ ['[', ']']) = (arraySuffix? s).map (Prod.map id Nat.succ) := by
  ext ⟨base, n⟩
  rw [arraySuffix?_eq_some_iff, Option.map_eq_some_iff]
  constructor
  · rintro ⟨hne, hbase, hn, heq⟩
    obtain ⟨n, rfl⟩ := Nat.exists_eq_succ_of_ne_zero hn.ne'
    rw [Nat.succ_eq_add_one, dimensionText_succ_eq_append, ← List.append_assoc,
      List.append_left_inj] at heq
    have hpos : 0 < n := by
      rw [Nat.pos_iff_ne_zero]
      rintro rfl
      rw [heq] at hs
      exact hs (by simpa [Descriptor.dimensionText] using hbase)
    exact ⟨(base, n), arraySuffix?_eq_some_iff.mpr ⟨hne, hbase, hpos, heq⟩, rfl⟩
  · rintro ⟨⟨base, n⟩, hsuffix, heq⟩
    obtain ⟨rfl, rfl⟩ := Prod.mk.inj heq
    obtain ⟨hne, hbase, -, rfl⟩ := arraySuffix?_eq_some_iff.mp hsuffix
    refine ⟨hne, hbase, Nat.succ_pos n, ?_⟩
    rw [Nat.succ_eq_add_one, dimensionText_succ_eq_append, List.append_assoc]
    rfl

/-- A text that ends in dots is no array text as it stands. -/
theorem arraySuffix?_eq_none_of_suffix {s : List Char} (h : "...".toList <:+ s) :
    arraySuffix? s = none := by
  cases hsuffix : arraySuffix? s with
  | none => rfl
  | some found =>
      obtain ⟨base, n⟩ := found
      obtain ⟨-, -, hn, rfl⟩ := arraySuffix?_eq_some_iff.mp hsuffix
      obtain ⟨n, rfl⟩ := Nat.exists_eq_succ_of_ne_zero hn.ne'
      rw [Nat.succ_eq_add_one, dimensionText_succ_eq_append, ← List.append_assoc] at h
      exact absurd h (not_suffix_append_pair _)

/-! ## Suffixes -/

/-- A text that is written for one dimension more. -/
def IsDimension (suffix : String) : Prop :=
  suffix = "[]" ∨ suffix = "..."

instance (suffix : String) : Decidable (IsDimension suffix) :=
  inferInstanceAs (Decidable (_ ∨ _))

/-- An array text that ends in three dots, blanks aside. -/
def EndsArray (text : List Char) : Prop :=
  ¬ NoBracket (Text.removeBlanks text) ∧ "...".toList <:+ Text.removeBlanks text

instance (text : List Char) : Decidable (EndsArray text) :=
  inferInstanceAs (Decidable (_ ∧ _))

/-- Both ways to write a dimension behind a text have the same normal form. -/
theorem normalize_append {suffix : String} (h : IsDimension suffix) (s : List Char) :
    normalize (s ++ suffix.toList) = Text.removeBlanks s ++ ['[', ']'] := by
  rcases h with rfl | rfl
  · have hremove : Text.removeBlanks (s ++ "[]".toList) = Text.removeBlanks s ++ ['[', ']'] := by
      rw [Text.removeBlanks_append]
      rfl
    rw [normalize_of_not_suffix, hremove]
    rw [hremove]
    exact not_suffix_append_pair _
  · rw [normalize, Text.removeBlanks_append]
    have hdots : (Text.removeBlanks "...".toList).reverse = ['.', '.', '.'] := by decide
    rw [List.reverse_append, hdots]
    simp

theorem normalize_removeBlanks (s : List Char) : normalize (Text.removeBlanks s) = normalize s := by
  simp [normalize, Text.removeBlanks]

end TypeText

/-! ## Resolving with suffixes -/

namespace Resolver

variable {r : Resolver}

/-- Only the normal form of a text matters. -/
theorem value_resolveChars_congr {s t : List Char}
    (h : TypeText.normalize s = TypeText.normalize t) :
    (r.resolveChars s).value = (r.resolveChars t).value := by
  by_cases hempty : TypeText.normalize t = []
  · rw [value_resolveChars_of_normalize_eq_nil r hempty,
      value_resolveChars_of_normalize_eq_nil r (h.trans hempty)]
  · rw [value_resolveChars r hempty, value_resolveChars r (h ▸ hempty), h]

theorem KnowsNoBrackets.value_inNamespace_eq_none (hr : r.KnowsNoBrackets) {name : List Char}
    (h : ¬ TypeText.NoBracket name) : (r.inNamespace (String.ofList name)).value = none := by
  have hqualified : ¬ TypeText.NoBracket (r.namespaceName ++ "." ++ String.ofList name).toList := by
    intro hall
    refine h ?_
    intro c hc
    exact hall c (by simp [hc])
  rw [inNamespace]
  split
  · rfl
  · exact hr _ hqualified

/-- A text with a bracket is resolved as an array or not at all. -/
theorem KnowsNoBrackets.value_resolveChars (hr : r.KnowsNoBrackets) {text : List Char}
    (h : ¬ TypeText.NoBracket (TypeText.normalize text)) :
    (r.resolveChars text).value =
      match TypeText.arraySuffix? (TypeText.normalize text) with
      | some (base, n) => (r.resolveChars base).value.map (·.wrap n)
      | none => none := by
  have hne : TypeText.normalize text ≠ [] := by
    intro hempty
    rw [hempty] at h
    exact h (List.forall_mem_nil _)
  rw [Resolver.value_resolveChars r hne, hr.direct?_eq_none h]
  cases TypeText.arraySuffix? (TypeText.normalize text) with
  | none => exact hr.value_inNamespace_eq_none h
  | some found => rfl

/-- A further suffix wraps what is found in a further dimension. -/
theorem KnowsNoBrackets.value_resolveChars_append (hr : r.KnowsNoBrackets) {suffix : String}
    (hsuffix : TypeText.IsDimension suffix) (text : List Char) :
    (r.resolveChars (text ++ suffix.toList)).value =
      if TypeText.EndsArray text then none else (r.resolveChars text).value.map (·.wrap 1) := by
  have hnormal := TypeText.normalize_append hsuffix text
  have hbracket : ¬ TypeText.NoBracket (TypeText.normalize (text ++ suffix.toList)) := by
    intro hall
    rw [hnormal] at hall
    have := hall '[' (by simp)
    contradiction
  rw [hr.value_resolveChars hbracket, hnormal]
  by_cases hplain : TypeText.NoBracket (Text.removeBlanks text)
  · rw [if_neg fun h => h.1 hplain]
    have hcongr := @value_resolveChars_congr r _ _ (TypeText.normalize_removeBlanks text)
    by_cases hempty : Text.removeBlanks text = []
    · have hnone : (r.resolveChars text).value = none := by
        refine value_resolveChars_of_normalize_eq_nil r ?_
        rw [← TypeText.normalize_removeBlanks, hempty]
        rfl
      rw [hnone, hempty]
      rfl
    · have hbase : TypeText.arraySuffix? (Text.removeBlanks text ++ ['[', ']']) =
          some (Text.removeBlanks text, 1) :=
        TypeText.arraySuffix?_eq_some_iff.mpr ⟨hempty, hplain, Nat.one_pos, rfl⟩
      rw [hbase]
      simp only [hcongr]
  rw [TypeText.arraySuffix?_append_pair hplain]
  by_cases hdots : "...".toList <:+ Text.removeBlanks text
  · rw [if_pos ⟨hplain, hdots⟩, TypeText.arraySuffix?_eq_none_of_suffix hdots]
    rfl
  · have htext := TypeText.normalize_of_not_suffix hdots
    rw [if_neg fun h => hdots h.2, hr.value_resolveChars (by rwa [htext]), htext]
    cases TypeText.arraySuffix? (Text.removeBlanks text) with
    | none => rfl
    | some found => simp [Function.comp_def, Descriptor.wrap_wrap]

/-! ## Any number of suffixes -/

/-- Some of the suffixes stands behind an array text that ends in three dots. -/
def IsInterrupted (text : String) : List String → Prop
  | [] => False
  | suffix :: rest => TypeText.EndsArray text.toList ∨ IsInterrupted (text ++ suffix) rest

instance decidableIsInterrupted (text : String) (suffixes : List String) :
    Decidable (IsInterrupted text suffixes) :=
  match suffixes with
  | [] => inferInstanceAs (Decidable False)
  | suffix :: rest =>
    have := decidableIsInterrupted (text ++ suffix) rest
    inferInstanceAs (Decidable (_ ∨ _))

theorem KnowsNoBrackets.value_resolve?_append (hr : r.KnowsNoBrackets) {suffix : String}
    (hsuffix : TypeText.IsDimension suffix) (text : String) :
    (r.resolve? (text ++ suffix)).value =
      if TypeText.EndsArray text.toList then none else (r.resolve? text).value.map (·.wrap 1) := by
  rw [resolve?, String.toList_append]
  exact hr.value_resolveChars_append hsuffix text.toList

theorem KnowsNoBrackets.value_resolve?_foldl_append (hr : r.KnowsNoBrackets)
    {suffixes : List String} (hsuffixes : ∀ suffix ∈ suffixes, TypeText.IsDimension suffix)
    (text : String) :
    (r.resolve? (suffixes.foldl (· ++ ·) text)).value =
      if IsInterrupted text suffixes then none
      else (r.resolve? text).value.map (Descriptor.wrap · 1)^[suffixes.length] := by
  induction suffixes generalizing text with
  | nil => simp [IsInterrupted]
  | cons suffix rest ih =>
      obtain ⟨hsuffix, hrest⟩ := List.forall_mem_cons.mp hsuffixes
      rw [List.foldl_cons, ih hrest, hr.value_resolve?_append hsuffix]
      by_cases hends : TypeText.EndsArray text.toList
      · simp [IsInterrupted, hends]
      · simp [IsInterrupted, hends, Function.comp_def]

/-- Resolving the second text asks for the first, its base, to be resolved. -/
def AsksFor (r : Resolver) (base text : List Char) : Prop :=
  r.direct? (String.ofList (TypeText.normalize text)) = none ∧
    ∃ n, TypeText.arraySuffix? (TypeText.normalize text) = some (base, n)

theorem length_lt_of_asksFor {base text : List Char} (h : r.AsksFor base text) :
    base.length < text.length := by
  obtain ⟨-, n, hsuffix⟩ := h
  have hlength := TypeText.length_of_arraySuffix? hsuffix
  have hpos := TypeText.dimensions_pos_of_arraySuffix? hsuffix
  have hnormal := TypeText.length_normalize_le text
  omega

theorem wellFounded_asksFor (r : Resolver) : WellFounded r.AsksFor :=
  Subrelation.wf (fun h => length_lt_of_asksFor h) (measure List.length).wf

/-- A suffix behind a text adds a dimension to what the text resolves to, and each of several
suffixes does, except behind an array text that ends in three dots. Resolving comes to an end for
every text. -/
theorem resolve?_suffixed (hr : r.KnowsNoBrackets) :
    (∀ text suffix, TypeText.IsDimension suffix →
      (r.resolve? (text ++ suffix)).value =
        if TypeText.EndsArray text.toList then none
        else (r.resolve? text).value.map (·.wrap 1)) ∧
    (∀ text suffixes, (∀ suffix ∈ suffixes, TypeText.IsDimension suffix) →
      (r.resolve? (suffixes.foldl (· ++ ·) text)).value =
        if IsInterrupted text suffixes then none
        else (r.resolve? text).value.map (Descriptor.wrap · 1)^[suffixes.length]) ∧
    (∀ (d : Descriptor) (n : ℕ), ((Descriptor.wrap · 1)^[n] d).element = d.element ∧
      ((Descriptor.wrap · 1)^[n] d).depth = d.depth + n) ∧
    WellFounded r.AsksFor := by
  refine ⟨?_, ?_, ?_, ?_⟩
  · intro text suffix hsuffix
    exact hr.value_resolve?_append hsuffix text
  · intro text suffixes hsuffixes
    exact hr.value_resolve?_foldl_append hsuffixes text
  · intro d n
    exact d.element_and_depth_iterate_wrap n
  · exact wellFounded_asksFor r

/-- The primitive types and a single further one. -/
def withItem : Resolver :=
  ⟨fun name => if name = "p.Item" then some (.named "p.Item") else none, ""⟩

theorem knowsNoBrackets_withItem : withItem.KnowsNoBrackets := by
  intro name hname
  refine if_neg ?_
  rintro rfl
  exact hname (by decide)

theorem resolve?_suffixed_four :
    withItem.KnowsNoBrackets ∧
      (∀ suffix ∈ ["...", "[]", "[]", "..."], TypeText.IsDimension suffix) ∧
      ¬ IsInterrupted "p.Item" ["...", "[]", "[]", "..."] ∧
      (withItem.resolve? "p.Item...[][]...").value = some (.arrayOver (.named "p.Item") 4) := by
  have hsuffixes : ∀ suffix ∈ ["...", "[]", "[]", "..."], TypeText.IsDimension suffix := by
    decide
  have hgoes : ¬ IsInterrupted "p.Item" ["...", "[]", "[]", "..."] := by
    decide +kernel
  have hbase : (withItem.resolve? "p.Item").value = some (.named "p.Item") := by
    decide +kernel
  obtain ⟨-, hmany, -⟩ := resolve?_suffixed knowsNoBrackets_withItem
  have htext := hmany "p.Item" ["...", "[]", "[]", "..."] hsuffixes
  rw [if_neg hgoes, hbase] at htext
  exact ⟨knowsNoBrackets_withItem, hsuffixes, hgoes, htext⟩

/-- The two dimensions behind the primitive are read, and a third one behind them is not. -/
theorem resolve?_dots_then_pair :
    withItem.KnowsNoBrackets ∧
      (withItem.resolve? "int[]...").value = some (.arrayOver (.primitive "int") 2) ∧
      (withItem.resolve? ("int[]..." ++ "[]")).value = none := by
  have hknows := knowsNoBrackets_withItem
  have hint : (withItem.resolve? "int").value = some (.primitive "int") := by
    decide +kernel
  have hpair := hknows.value_resolve?_append (.inl rfl) "int"
  have hdots := hknows.value_resolve?_append (.inr rfl) "int[]"
  have hthird := hknows.value_resolve?_append (.inl rfl) "int[]..."
  rw [if_neg (by decide), hint] at hpair
  rw [if_neg (by decide)] at hdots
  rw [if_pos (by decide)] at hthird
  refine ⟨hknows, ?_, hthird⟩
  exact hdots.trans (congrArg _ hpair)

end Resolver

end MethodSig
