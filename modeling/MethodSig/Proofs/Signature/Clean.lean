import MethodSig.Proofs.Signature.Generics
import MethodSig.Proofs.Signature.Grammar
import MethodSig.Proofs.Text.Spacing

/-!
# Clean signatures

A text is clean if it holds no type parameters and no modifiers, and single spaces are its only
blanks. Cleaning makes a text clean and keeps all identifiers that stand outside type parameters
and are no modifiers. The clean texts are those that cleaning leaves as they are, so the tokens of a
signature can be read from its cleaned text again.
-/

namespace MethodSig.Signature

open Text

variable {c : Char} {s t : List Char}

/-- What holds of runs of identifier characters, and of two texts with another character between
them if it holds of both, holds of every text. -/
theorem run_induction {P : List Char → Prop}
    (hrun : ∀ s, (∀ c ∈ s, insideIdentifier c = true) → P s)
    (hcut : ∀ s c t, insideIdentifier c = false → P s → P t → P (s ++ c :: t))
    (s : List Char) : P s := by
  induction hlength : s.length using Nat.strong_induction_on generalizing s with
  | h n ih =>
      have hcut_eq : s.takeWhile insideIdentifier ++ s.dropWhile insideIdentifier = s :=
        List.takeWhile_append_dropWhile
      have htake : P (s.takeWhile insideIdentifier) :=
        hrun _ fun c hc => List.mem_takeWhile_imp hc
      cases hdrop : s.dropWhile insideIdentifier with
      | nil =>
          rw [hdrop, List.append_nil] at hcut_eq
          exact hcut_eq ▸ htake
      | cons c rest =>
          have hc : insideIdentifier c = false := by
            have := List.head?_dropWhile_not insideIdentifier s
            rwa [hdrop] at this
          rw [hdrop] at hcut_eq
          have hshorter : rest.length < n := by
            rw [← hlength, ← hcut_eq, List.length_append, List.length_cons]
            omega
          rw [← hcut_eq]
          exact hcut _ c rest hc htake (ih rest.length hshorter rest rfl)

/-! ## The identifiers of a text -/

/-- The maximal runs of identifier characters, in order. -/
def identifiers (s : List Char) : List (List Char) :=
  (s.splitOnP (!insideIdentifier ·)).filter (!·.isEmpty)

theorem identifiers_append_cons (hc : insideIdentifier c = false) (s t : List Char) :
    identifiers (s ++ c :: t) = identifiers s ++ identifiers t := by
  rw [identifiers, List.splitOnP_append_cons s t (by simp [hc]), List.filter_append]
  rfl

theorem identifiers_nil : identifiers [] = [] := by
  decide

theorem identifiers_eq_singleton (hne : s ≠ []) (h : ∀ c ∈ s, insideIdentifier c = true) :
    identifiers s = [s] := by
  have hsplit : s.splitOnP (!insideIdentifier ·) = [s] :=
    List.splitOnP_eq_singleton fun c hc => by simp [h c hc]
  simp [identifiers, hsplit, hne]

theorem identifiers_cons (hc : insideIdentifier c = false) (t : List Char) :
    identifiers (c :: t) = identifiers t := by
  rw [← List.nil_append (c :: t), identifiers_append_cons hc, identifiers_nil, List.nil_append]

theorem identifiers_append_of_outside (hs : ∀ c ∈ s, insideIdentifier c = false)
    (t : List Char) : identifiers (s ++ t) = identifiers t := by
  induction s with
  | nil => rw [List.nil_append]
  | cons c s ih =>
      rw [List.forall_mem_cons] at hs
      rw [List.cons_append, identifiers_cons hs.1, ih hs.2]

theorem noModifier_iff_identifiers (s : List Char) :
    NoModifier s ↔ ∀ run ∈ identifiers s, isModifier run = false := by
  induction s using run_induction with
  | hrun s hs =>
      by_cases hne : s = []
      · simp [hne, noModifier_nil, identifiers_nil]
      · simp [NoModifier, identifierRuns_eq_singleton hne hs, identifiers_eq_singleton hne hs]
  | hcut s c t hc hs ht =>
      rw [noModifier_append_cons_iff hc, hs, ht, identifiers_append_cons hc,
        List.forall_mem_append]

/-- Blanking the modifiers keeps all other identifiers. -/
theorem identifiers_blankModifiers (s : List Char) :
    identifiers (blankModifiers s) = (identifiers s).filter (!isModifier ·) := by
  induction s using run_induction with
  | hrun s hs =>
      by_cases hne : s = []
      · rw [hne]
        decide
      · rw [blankModifiers_of_inside hne hs, identifiers_eq_singleton hne hs]
        by_cases hmodifier : isModifier s = true
        · rw [if_pos hmodifier, List.filter_cons_of_neg (by simp [hmodifier])]
          decide
        · rw [if_neg hmodifier, identifiers_eq_singleton hne hs,
            List.filter_cons_of_pos (by simpa using hmodifier)]
          rfl
  | hcut s c t hc hs ht =>
      rw [blankModifiers_append_cons hc, identifiers_append_cons hc, hs, ht,
        identifiers_append_cons hc, List.filter_append]

/-- No identifier reaches beyond a word. -/
theorem identifiers_eq_flatMap_words (s : List Char) :
    identifiers s = (words s).flatMap identifiers := by
  induction hwords : words s generalizing s with
  | nil =>
      rw [words_eq_nil_iff] at hwords
      have houtside := identifiers_append_of_outside
        (fun c hc => insideIdentifier_eq_false_of_isBlank (hwords c hc)) []
      rwa [List.append_nil, identifiers_nil] at houtside
  | cons w ws ih =>
      obtain ⟨blanks, rest, rfl, hblanks, -, -, hhead, hrest⟩ :=
        exists_append_of_words_eq_cons hwords
      have houtside : ∀ c ∈ blanks, insideIdentifier c = false :=
        fun c hc => insideIdentifier_eq_false_of_isBlank (hblanks c hc)
      rw [identifiers_append_of_outside houtside, List.flatMap_cons, ← ih rest hrest]
      cases rest with
      | nil => rw [List.append_nil, identifiers_nil, List.append_nil]
      | cons c rest =>
          have hc := insideIdentifier_eq_false_of_isBlank (hhead c rfl)
          rw [identifiers_append_cons hc, identifiers_cons hc]

theorem identifiers_collapse (s : List Char) : identifiers (collapse s) = identifiers s := by
  rw [identifiers_eq_flatMap_words, words_collapse, ← identifiers_eq_flatMap_words]

/-! ## The brackets of a text -/

/-- Neither modifiers nor blanks hold a bracket. -/
theorem filter_isAngle_blankModifiers (s : List Char) :
    (blankModifiers s).filter isAngle = s.filter isAngle := by
  have hinside : ∀ c, insideIdentifier c = true → isAngle c = false := by
    intro c hc
    refine isAngle_eq_false_of_notMem (s := [c]) ?_ ?_ c (List.mem_singleton_self c)
    · rw [List.mem_singleton]
      rintro rfl
      contradiction
    · rw [List.mem_singleton]
      rintro rfl
      contradiction
  induction s using run_induction with
  | hrun s hs =>
      have hnone : s.filter isAngle = [] := by
        rw [List.filter_eq_nil_iff]
        intro c hc
        simp [hinside c (hs c hc)]
      by_cases hne : s = []
      · rw [hne]
        rfl
      · rw [blankModifiers_of_inside hne hs, hnone]
        split
        · decide
        · exact hnone
  | hcut s c t hc hs ht =>
      rw [blankModifiers_append_cons hc, List.filter_append, List.filter_append,
        List.filter_cons, List.filter_cons, hs, ht]

theorem filter_isAngle_collapse (s : List Char) :
    (collapse s).filter isAngle = s.filter isAngle := by
  have hsolid (s : List Char) : (removeBlanks s).filter isAngle = s.filter isAngle := by
    rw [removeBlanks, List.filter_filter]
    refine List.filter_congr ?_
    intro c _
    by_cases hc : isBlank c = true
    · rw [isAngle_eq_false_of_isBlank hc, Bool.false_and]
    · simp [hc]
  rw [← hsolid, removeBlanks_collapse, hsolid]

/-- A text has no type parameters exactly if no opening bracket stands in front of a closing
one. -/
theorem removeTypeParameters_eq_self_iff :
    removeTypeParameters s = s ↔ ¬ ['<', '>'].Sublist s := by
  constructor
  · intro h hsublist
    obtain ⟨u, v, hs, hu, hv⟩ := exists_append_of_removeTypeParameters s
    rw [← h, hs, List.sublist_append_iff] at hsublist
    obtain ⟨x, y, hxy, hx, hy⟩ := hsublist
    cases x with
    | nil =>
        rw [List.nil_append] at hxy
        exact hv (hy.subset (by simp [← hxy]))
    | cons c x =>
        have hc : '<' = c := (List.cons.inj hxy).1
        exact hu (hx.subset (hc ▸ List.mem_cons_self))
  · intro h
    have hcut : s.takeWhile (· ≠ '<') ++ s.dropWhile (· ≠ '<') = s :=
      List.takeWhile_append_dropWhile
    have hbefore : '<' ∉ s.takeWhile (· ≠ '<') := by
      intro hmem
      simpa using List.mem_takeWhile_imp hmem
    have hbehind : '>' ∉ s.dropWhile (· ≠ '<') := by
      intro hmem
      cases hdrop : s.dropWhile (· ≠ '<') with
      | nil =>
          rw [hdrop] at hmem
          exact List.not_mem_nil hmem
      | cons c rest =>
          have hc := List.head?_dropWhile_not (· ≠ '<') s
          rw [hdrop] at hc hmem
          have hc : c = '<' := by simpa using hc
          have hrest : '>' ∈ rest := by simpa [hc] using hmem
          rw [← hcut, hdrop, hc] at h
          refine h (List.Sublist.trans ?_ (List.sublist_append_right _ _))
          exact (List.singleton_sublist.mpr hrest).cons_cons '<'
    have houtside := outside_eq_self hbefore hbehind
    rwa [hcut, ← removeTypeParameters_eq_outside] at houtside

/-! ## Clean texts -/

/-- Nothing is left in the text that cleaning removes: no opening bracket stands in front of a
closing one, no identifier is a modifier, and the blanks are single spaces between words. -/
structure IsClean (s : List Char) : Prop where
  noTypeParameters : ¬ ['<', '>'].Sublist s
  noModifier : ∀ run ∈ identifiers s, isModifier run = false
  spaced : s = [] ∨ SingleSpaced s

theorem isClean_clean (s : List Char) : IsClean (clean s) := by
  refine ⟨?_, ?_, ?_⟩
  · intro hsublist
    have hfilter := hsublist.filter isAngle
    rw [clean, filter_isAngle_collapse, filter_isAngle_blankModifiers] at hfilter
    have hleft := removeTypeParameters_removeTypeParameters s
    rw [removeTypeParameters_eq_self_iff] at hleft
    exact hleft (hfilter.trans List.filter_sublist)
  · rw [← noModifier_iff_identifiers]
    exact noModifier_clean s
  · exact collapse_eq_nil_or_singleSpaced _

/-- The clean texts are those that cleaning leaves as they are. -/
theorem clean_eq_self_iff : clean s = s ↔ IsClean s := by
  constructor
  · intro h
    rw [← h]
    exact isClean_clean s
  · rintro ⟨hparameters, hmodifier, hspaced⟩
    rw [clean, removeTypeParameters_eq_self_iff.mpr hparameters,
      blankModifiers_eq_self ((noModifier_iff_identifiers s).mpr hmodifier)]
    rcases hspaced with rfl | hspaced
    · rw [collapse, words_nil, List.intercalate_nil]
    · exact hspaced.collapse_eq_self

theorem identifiers_clean (s : List Char) :
    identifiers (clean s) = (identifiers (removeTypeParameters s)).filter (!isModifier ·) := by
  rw [clean, identifiers_collapse, identifiers_blankModifiers]

/-- The tokens of a signature are the tokens of its cleaned text. -/
theorem tokenize_signature_of_tokenize {signature : String} {tokens : Tokens}
    (h : tokenize signature = .ok tokens) : tokenize tokens.signature = .ok tokens := by
  rw [tokenize_eq_ok_iff] at h ⊢
  obtain ⟨w, hw, htext, rfl⟩ := h
  refine ⟨w, hw, ?_, rfl⟩
  have hclean : clean w.text = w.text := by
    rw [clean_eq_self_iff, htext]
    exact isClean_clean _
  rw [WrittenSignature.tokens, String.toList_ofList, hclean]

/-- Cleaning makes a text clean, keeps its identifiers outside type parameters that are no
modifiers, and leaves a clean text as it is. So the tokens of a signature can be read again from
its cleaned text. -/
theorem clean_normalizes (s : List Char) :
    IsClean (clean s) ∧
      identifiers (clean s) = (identifiers (removeTypeParameters s)).filter (!isModifier ·) ∧
      clean (clean s) = clean s ∧
      ∀ signature tokens, tokenize signature = .ok tokens →
        tokenize tokens.signature = .ok tokens := by
  refine ⟨isClean_clean s, identifiers_clean s, ?_, ?_⟩
  · exact clean_eq_self_iff.mpr (isClean_clean s)
  · intro signature tokens h
    exact tokenize_signature_of_tokenize h

/-- A name that only begins with a modifier is kept. -/
theorem clean_normalizes_dollar :
    ∃ tokens : Tokens,
      tokenize "static <T> native$  get (Map<K, List<V>>[]  final$,\tfinal int b) ; " =
          .ok tokens ∧
        tokens.signature = "native$ get (Map[] final$, int b) ;" ∧
        tokenize tokens.signature = .ok tokens := by
  have h : tokenize
      "static <T> native$  get (Map<K, List<V>>[]  final$,\tfinal int b) ; " =
        .ok ⟨"native$ get (Map[] final$, int b) ;", "native$", "get",
          [("Map[]", "final$"), ("int", "b")]⟩ := by
    decide +kernel
  obtain ⟨-, -, -, htokens⟩ := clean_normalizes "static <T> native$".toList
  exact ⟨_, h, rfl, htokens _ _ h⟩

end MethodSig.Signature
