import Mathlib.Data.List.Infix
import Mathlib.Data.List.SplitBy
import Mathlib.Data.List.TakeWhile
import MethodSig.Proofs.Text.Word
import MethodSig.Signature.Modifier

/-!
# Texts without modifiers

A character that no identifier holds cuts the runs of a text into those before it and those after
it. Once its modifiers are blanked a text has none left, and neither has any piece that is cut out
of it at such characters.
-/

namespace MethodSig.Signature

open Text

theorem insideIdentifier_eq_false_of_isBlank {c : Char} (h : isBlank c = true) :
    insideIdentifier c = false := by
  rw [insideIdentifier, isWord_eq_false_of_isBlank h, Bool.or_false, decide_eq_false_iff_not]
  rintro rfl
  contradiction

theorem isBlank_eq_false_of_insideIdentifier {c : Char} (h : insideIdentifier c = true) :
    isBlank c = false := by
  by_contra hc
  rw [Bool.not_eq_false] at hc
  rw [insideIdentifier_eq_false_of_isBlank hc] at h
  contradiction

theorem insideIdentifier_of_beginsIdentifier {c : Char} (h : beginsIdentifier c = true) :
    insideIdentifier c = true := by
  simp only [beginsIdentifier, insideIdentifier, Bool.or_eq_true, Bool.and_eq_true] at h ⊢
  exact h.imp_right And.left

theorem ne_nil_of_isIdentifier {s : List Char} (h : isIdentifier s = true) : s ≠ [] := by
  rintro rfl
  contradiction

theorem insideIdentifier_of_mem {s : List Char} (h : isIdentifier s = true) :
    ∀ c ∈ s, insideIdentifier c = true := by
  cases s with
  | nil => simp
  | cons c s =>
      rw [isIdentifier, Bool.and_eq_true, List.all_eq_true] at h
      exact List.forall_mem_cons.mpr ⟨insideIdentifier_of_beginsIdentifier h.1, h.2⟩

/-! ## Runs -/

theorem identifierRuns_append_cons {c : Char} (hc : insideIdentifier c = false)
    (s t : List Char) :
    identifierRuns (s ++ c :: t) = identifierRuns s ++ [c] :: identifierRuns t := by
  have hsingle : identifierRuns (c :: t) = [c] :: identifierRuns t := by
    rw [← List.singleton_append, identifierRuns, List.splitBy_append (by simp [hc])]
    rfl
  rw [← hsingle, identifierRuns, List.splitBy_append (by simp [hc])]
  rfl

theorem identifierRuns_eq_singleton {s : List Char} (hne : s ≠ [])
    (h : ∀ c ∈ s, insideIdentifier c = true) : identifierRuns s = [s] := by
  apply List.splitBy_of_isChain hne
  apply List.Pairwise.isChain
  refine List.pairwise_of_forall_mem_list ?_
  intro a ha b hb
  rw [h a ha, h b hb]
  rfl

def NoModifier (s : List Char) : Prop :=
  ∀ run ∈ identifierRuns s, isModifier run = false

instance (s : List Char) : Decidable (NoModifier s) :=
  inferInstanceAs (Decidable (∀ run ∈ identifierRuns s, isModifier run = false))

theorem isModifier_singleton (c : Char) : isModifier [c] = false := by
  simp [isModifier, modifiers]

theorem noModifier_append_cons_iff {c : Char} (hc : insideIdentifier c = false)
    (s t : List Char) : NoModifier (s ++ c :: t) ↔ NoModifier s ∧ NoModifier t := by
  simp only [NoModifier, identifierRuns_append_cons hc, List.forall_mem_append,
    List.forall_mem_cons, isModifier_singleton, true_and]

theorem noModifier_cons_iff {c : Char} (hc : insideIdentifier c = false) (t : List Char) :
    NoModifier (c :: t) ↔ NoModifier t := by
  have h := noModifier_append_cons_iff hc [] t
  simpa [NoModifier, identifierRuns] using h

theorem noModifier_iff_of_isIdentifier {s : List Char} (h : isIdentifier s = true) :
    NoModifier s ↔ isModifier s = false := by
  simp [NoModifier,
    identifierRuns_eq_singleton (ne_nil_of_isIdentifier h) (insideIdentifier_of_mem h)]

theorem blankModifiers_eq_self {s : List Char} (h : NoModifier s) : blankModifiers s = s := by
  have hruns : (identifierRuns s).flatMap
      (fun run => if isModifier run then [' '] else run) = (identifierRuns s).flatMap id := by
    apply List.flatMap_congr
    intro run hrun
    simp [h run hrun]
  rw [blankModifiers, hruns, List.flatMap_id, identifierRuns, List.flatten_splitBy]

/-- A character that no identifier holds cuts a text into two whose modifiers can be blanked one
after the other. -/
theorem blankModifiers_append_cons {c : Char} (hc : insideIdentifier c = false)
    (s t : List Char) :
    blankModifiers (s ++ c :: t) = blankModifiers s ++ c :: blankModifiers t := by
  rw [blankModifiers, identifierRuns_append_cons hc, List.flatMap_append, List.flatMap_cons,
    isModifier_singleton]
  rfl

/-! ### Runs that meet -/

theorem blankModifiers_of_inside {s : List Char} (hne : s ≠ [])
    (h : ∀ c ∈ s, insideIdentifier c = true) :
    blankModifiers s = if isModifier s then [' '] else s := by
  rw [blankModifiers, identifierRuns_eq_singleton hne h, List.flatMap_singleton]

/-- No modifier consists of two others. -/
theorem isModifier_append_eq_false {s t : List Char} (hs : isModifier s = true)
    (ht : isModifier t = true) : isModifier (s ++ t) = false := by
  have hall : ∀ a ∈ modifiers, ∀ b ∈ modifiers, isModifier (a.toList ++ b.toList) = false := by
    decide +kernel
  simp only [isModifier, List.any_eq_true, beq_iff_eq] at hs ht
  obtain ⟨a, ha, rfl⟩ := hs
  obtain ⟨b, hb, rfl⟩ := ht
  exact hall a ha b hb

/-- A text is a run of identifier characters or has a last character outside identifiers. -/
theorem inside_or_exists_last (s : List Char) :
    (∀ c ∈ s, insideIdentifier c = true) ∨
      ∃ u c v, s = u ++ c :: v ∧ insideIdentifier c = false ∧ ∀ d ∈ v, insideIdentifier d = true := by
  induction s with
  | nil => exact .inl (List.forall_mem_nil _)
  | cons c s ih =>
      rcases ih with hs | ⟨u, d, v, rfl, hd, hv⟩
      · by_cases hc : insideIdentifier c = true
        · exact .inl (List.forall_mem_cons.mpr ⟨hc, hs⟩)
        · exact .inr ⟨[], c, s, rfl, by simpa using hc, hs⟩
      · exact .inr ⟨c :: u, d, v, rfl, hd, hv⟩

section Count

variable {p : Char → Bool} {s t : List Char}

/-- Where two runs of identifier characters meet, a modifier that is made or broken changes the
number of characters that are left. -/
theorem blankModifiers_append_of_inside (hp : ∀ c, insideIdentifier c = true → p c = true)
    (hspace : p ' ' = false) (hs : ∀ c ∈ s, insideIdentifier c = true)
    (ht : ∀ c ∈ t, insideIdentifier c = true)
    (h : (blankModifiers (s ++ t)).countP p =
      (blankModifiers s).countP p + (blankModifiers t).countP p) :
    blankModifiers (s ++ t) = blankModifiers s ++ blankModifiers t := by
  by_cases hs_ne : s = []
  · rw [hs_ne]
    rfl
  by_cases ht_ne : t = []
  · rw [ht_ne, List.append_nil]
    exact (List.append_nil _).symm
  have hst := List.forall_mem_append.mpr ⟨hs, ht⟩
  have hs_pos := List.length_pos_iff.mpr hs_ne
  have ht_pos := List.length_pos_iff.mpr ht_ne
  have hcount {r : List Char} (hr : ∀ c ∈ r, insideIdentifier c = true) :
      (if isModifier r = true then [' '] else r).countP p =
        if isModifier r = true then 0 else r.length := by
    split
    · simp [hspace]
    · exact List.countP_eq_length.mpr fun c hc => hp c (hr c hc)
  rw [blankModifiers_of_inside hs_ne hs, blankModifiers_of_inside ht_ne ht,
    blankModifiers_of_inside (by simp [hs_ne]) hst] at h ⊢
  rw [hcount hst, hcount hs, hcount ht, List.length_append] at h
  by_cases hst_modifier : isModifier (s ++ t) = true
  · rw [if_pos hst_modifier] at h
    have hs_modifier : isModifier s = true := by
      by_contra hne
      rw [if_neg hne] at h
      omega
    have ht_modifier : isModifier t = true := by
      by_contra hne
      rw [if_neg hne] at h
      omega
    rw [isModifier_append_eq_false hs_modifier ht_modifier] at hst_modifier
    contradiction
  · rw [if_neg hst_modifier] at h
    have hs_modifier : ¬ isModifier s = true := by
      intro hpos
      rw [if_pos hpos] at h
      split at h
      · omega
      · omega
    have ht_modifier : ¬ isModifier t = true := by
      intro hpos
      rw [if_pos hpos] at h
      split at h
      · omega
      · omega
    rw [if_neg hst_modifier, if_neg hs_modifier, if_neg ht_modifier]

/-- Only the runs at the end of the one text and the beginning of the other can meet. -/
theorem blankModifiers_append (hp : ∀ c, insideIdentifier c = true → p c = true)
    (hspace : p ' ' = false)
    (h : (blankModifiers (s ++ t)).countP p =
      (blankModifiers s).countP p + (blankModifiers t).countP p) :
    blankModifiers (s ++ t) = blankModifiers s ++ blankModifiers t := by
  have hright {s : List Char} (hs : ∀ c ∈ s, insideIdentifier c = true)
      (h : (blankModifiers (s ++ t)).countP p =
        (blankModifiers s).countP p + (blankModifiers t).countP p) :
      blankModifiers (s ++ t) = blankModifiers s ++ blankModifiers t := by
    have ht : ∀ c ∈ t.takeWhile insideIdentifier, insideIdentifier c = true :=
      fun c hc => List.mem_takeWhile_imp hc
    have hcut : t.takeWhile insideIdentifier ++ t.dropWhile insideIdentifier = t :=
      List.takeWhile_append_dropWhile
    rcases hdrop : t.dropWhile insideIdentifier with _ | ⟨c, rest⟩
    · rw [hdrop, List.append_nil] at hcut
      exact blankModifiers_append_of_inside hp hspace hs (hcut ▸ ht) h
    · have hc : insideIdentifier c = false := by
        have := List.head?_dropWhile_not insideIdentifier t
        rwa [hdrop] at this
      rw [← hcut, hdrop, ← List.append_assoc, blankModifiers_append_cons hc,
        blankModifiers_append_cons hc] at h ⊢
      simp only [List.countP_append, List.countP_cons] at h
      rw [blankModifiers_append_of_inside hp hspace hs ht (by omega), List.append_assoc]
  rcases inside_or_exists_last s with hs | ⟨u, c, v, rfl, hc, hv⟩
  · exact hright hs h
  · rw [List.append_assoc, List.cons_append, blankModifiers_append_cons hc,
      blankModifiers_append_cons hc] at h ⊢
    simp only [List.countP_append, List.countP_cons] at h
    rw [hright hv (by omega), List.append_assoc, List.cons_append]

end Count

/-- A modifier gives way to a character that no identifier holds, so the other runs stay what
they are. -/
theorem identifierRuns_blankModifiers (s : List Char) :
    identifierRuns (blankModifiers s) =
      (identifierRuns s).map fun run => if isModifier run then [' '] else run := by
  obtain ⟨-, hne, hchain, hapart⟩ := List.splitBy_eq_iff.mp (Eq.refl (identifierRuns s))
  have hspace : insideIdentifier ' ' = false := by decide
  refine List.splitBy_eq_iff.mpr ⟨?_, ?_, ?_, ?_⟩
  · rw [blankModifiers, List.flatMap_def]
  · intro hmem
    obtain ⟨run, hrun, hnil⟩ := List.mem_map.mp hmem
    split at hnil
    · contradiction
    · exact hne (hnil ▸ hrun)
  · intro run' hmem
    obtain ⟨run, hrun, rfl⟩ := List.mem_map.mp hmem
    split
    · exact List.isChain_singleton _
    · exact hchain run hrun
  · refine (List.isChain_map _).mpr (hapart.imp ?_)
    rintro a b ⟨ha, hb, hab⟩
    by_cases ha' : isModifier a = true
    · by_cases hb' : isModifier b = true
      · simp [ha', hb', hspace]
      · simp [ha', hb', hspace, hb]
    · by_cases hb' : isModifier b = true
      · simp [ha', hb', hspace, ha]
      · simp only [ha', hb']
        exact ⟨ha, hb, hab⟩

theorem noModifier_blankModifiers (s : List Char) : NoModifier (blankModifiers s) := by
  intro run' hmem
  rw [identifierRuns_blankModifiers] at hmem
  obtain ⟨run, -, rfl⟩ := List.mem_map.mp hmem
  split
  next => exact isModifier_singleton ' '
  next hrun => simpa using hrun

/-! ## Pieces -/

namespace NoModifier

variable {s : List Char} {p : Char → Bool}

/-- Characters that no identifier holds may be skipped. -/
theorem dropWhile_of_outside (hs : NoModifier s)
    (hp : ∀ c, p c = true → insideIdentifier c = false) : NoModifier (s.dropWhile p) := by
  induction s with
  | nil => exact hs
  | cons c s ih =>
      rw [List.dropWhile_cons]
      split
      next hc => exact ih ((noModifier_cons_iff (hp c hc) s).mp hs)
      next => exact hs

/-- A text may be cut before a character that no identifier holds. -/
theorem takeWhile_and_dropWhile (hs : NoModifier s)
    (hp : ∀ c, p c = false → insideIdentifier c = false) :
    NoModifier (s.takeWhile p) ∧ NoModifier (s.dropWhile p) := by
  have hcut : s.takeWhile p ++ s.dropWhile p = s := List.takeWhile_append_dropWhile
  rcases hdrop : s.dropWhile p with _ | ⟨c, rest⟩
  · rw [hdrop, List.append_nil] at hcut
    rw [hcut]
    exact ⟨hs, by decide⟩
  · have hc : insideIdentifier c = false := by
      apply hp
      have := List.head?_dropWhile_not p s
      rwa [hdrop] at this
    rw [← hcut, hdrop] at hs
    rw [noModifier_cons_iff hc]
    exact (noModifier_append_cons_iff hc _ _).mp hs

theorem takeWhile (hs : NoModifier s) (hp : ∀ c, p c = false → insideIdentifier c = false) :
    NoModifier (s.takeWhile p) :=
  (hs.takeWhile_and_dropWhile hp).1

theorem dropWhile (hs : NoModifier s) (hp : ∀ c, p c = false → insideIdentifier c = false) :
    NoModifier (s.dropWhile p) :=
  (hs.takeWhile_and_dropWhile hp).2

end NoModifier

end MethodSig.Signature
