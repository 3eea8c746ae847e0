import Mathlib.Data.List.DropRight
import Mathlib.Data.Option.Basic
import MethodSig.Proofs.Signature.Modifier
import MethodSig.Proofs.Text.Blank
import MethodSig.Signature.Tokens

/-!
# The names in the tokens of a signature

The names that a signature declares are identifiers, and since its modifiers are removed first,
none of them is a modifier.
-/

namespace MethodSig.Signature

open Text

def IsName (s : List Char) : Prop :=
  isIdentifier s = true ∧ isModifier s = false

instance (s : List Char) : Decidable (IsName s) :=
  inferInstanceAs (Decidable (isIdentifier s = true ∧ isModifier s = false))

/-! ## Cleaning -/

theorem noModifier_nil : NoModifier [] := by
  decide

theorem noModifier_of_mem_words {s w : List Char} (hs : NoModifier s) (hw : w ∈ words s) :
    NoModifier w := by
  fun_induction words s with
  | case1 s hnil => simp at hw
  | case2 s c r hcons _ ih =>
      have hskip := hs.dropWhile_of_outside (p := isBlank)
        fun _ => insideIdentifier_eq_false_of_isBlank
      have hstop (d : Char) (hd : (!isBlank d) = false) : insideIdentifier d = false :=
        insideIdentifier_eq_false_of_isBlank (by simpa using hd)
      have hc : (!isBlank c) = true := by
        have := List.head?_dropWhile_not isBlank s
        rw [hcons] at this
        simpa using this
      rw [hcons] at hskip
      have hcut := hskip.takeWhile_and_dropWhile (p := (!isBlank ·)) hstop
      simp only [List.takeWhile_cons, List.dropWhile_cons, hc, if_true] at hcut
      rcases List.mem_cons.mp hw with rfl | hw
      · exact hcut.1
      · exact ih hcut.2 hw

theorem noModifier_intercalate_space {ws : List (List Char)} (h : ∀ w ∈ ws, NoModifier w) :
    NoModifier ([' '].intercalate ws) := by
  induction ws with
  | nil => exact noModifier_nil
  | cons w ws ih =>
      obtain ⟨hw, hws⟩ := List.forall_mem_cons.mp h
      cases ws with
      | nil => simpa using hw
      | cons v ws =>
          rw [List.intercalate_cons_cons, List.append_assoc, List.singleton_append,
            noModifier_append_cons_iff (by decide)]
          exact ⟨hw, ih hws⟩

theorem noModifier_clean (s : List Char) : NoModifier (clean s) :=
  noModifier_intercalate_space fun _ hw =>
    noModifier_of_mem_words (noModifier_blankModifiers _) hw

theorem noModifier_strip {s : List Char} (hs : NoModifier s) : NoModifier (strip s) := by
  have hright {t : List Char} (ht : NoModifier t) : NoModifier (t.rdropWhile isBlank) := by
    induction t using List.reverseRecOn with
    | nil => exact ht
    | append_singleton t c ih =>
        rw [List.rdropWhile_concat]
        split
        next hc =>
          have hc := insideIdentifier_eq_false_of_isBlank hc
          exact ih ((noModifier_append_cons_iff hc t []).mp ht).1
        next => exact ht
  exact hright (hs.dropWhile_of_outside fun _ => insideIdentifier_eq_false_of_isBlank)

/-! ## The outline -/

theorem eq_of_splitAtLastOpening {s before after : List Char}
    (h : splitAtLastOpening s = some (before, after)) : s = before ++ '(' :: after := by
  unfold splitAtLastOpening at h
  split at h
  next => simp at h
  next c rest hdrop =>
    have hc : c = '(' := by
      have := List.head?_dropWhile_not (· ≠ '(') s.reverse
      rw [hdrop] at this
      simpa using this
    have hcut : s.reverse = s.reverse.takeWhile (· ≠ '(') ++ '(' :: rest := by
      rw [hc] at hdrop
      rw [← hdrop, List.takeWhile_append_dropWhile]
    simp only [Option.some.injEq, Prod.mk.injEq] at h
    obtain ⟨rfl, rfl⟩ := h
    rw [List.reverse_eq_iff] at hcut
    rw [List.reverse_append, List.reverse_cons, List.append_assoc, List.singleton_append] at hcut
    exact hcut

theorem splitAtLastOpening_append_cons {before after : List Char} (h : '(' ∉ after) :
    splitAtLastOpening (before ++ '(' :: after) = some (before, after) := by
  have hall : ∀ c ∈ after.reverse, decide (c ≠ '(') = true := by
    intro c hc
    rw [decide_eq_true_eq]
    rintro rfl
    exact h (List.mem_reverse.mp hc)
  have hreverse : (before ++ '(' :: after).reverse = after.reverse ++ '(' :: before.reverse := by
    simp
  rw [splitAtLastOpening, hreverse, dropWhile_append_cons_of_neg (by decide),
    takeWhile_append_cons_of_neg (by decide), List.dropWhile_eq_nil_iff.mpr hall,
    List.takeWhile_eq_self_iff.mpr hall]
  simp

theorem noModifier_of_outline? {s resultType name arguments : List Char} (hs : NoModifier s)
    (h : outline? s = some (resultType, name, arguments)) :
    NoModifier name ∧ NoModifier arguments := by
  simp only [outline?, Option.bind_eq_bind, Option.bind_eq_some_iff, Prod.exists] at h
  obtain ⟨before, after, hsplit, h⟩ := h
  rw [eq_of_splitAtLastOpening hsplit, noModifier_append_cons_iff (by decide)] at hs
  split at h
  next wordResult wordName hwords =>
    split at h
    next ending hending =>
      simp only [Option.bind_eq_some_iff, Option.pure_def, Option.some.injEq, Prod.mk.injEq] at h
      obtain ⟨-, -, -, rfl, rfl⟩ := h
      refine ⟨noModifier_of_mem_words hs.1 (by simp [hwords]), hs.2.takeWhile ?_⟩
      intro c hc
      rw [decide_eq_false_iff_not, not_not] at hc
      rw [hc]
      decide
    next => simp at h
  next => simp at h

/-! ## Arguments -/

theorem noModifier_of_cutArgument? {s type name rest : List Char} (hs : NoModifier s)
    (h : cutArgument? s = some ((type, name), rest)) : NoModifier name ∧ NoModifier rest := by
  have hblank (c : Char) (hc : isBlank c = true) : insideIdentifier c = false :=
    insideIdentifier_eq_false_of_isBlank hc
  have hword (c : Char) (hc : (!isBlank c) = false) : insideIdentifier c = false :=
    hblank c (by simpa using hc)
  have hname (c : Char) (hc : insideName c = false) : insideIdentifier c = false := by
    simp only [insideName, Bool.and_eq_false_iff, Bool.not_eq_false', decide_eq_false_iff_not,
      not_not] at hc
    rcases hc with hc | rfl
    · exact hblank c hc
    · decide
  have hnamed := ((hs.dropWhile_of_outside hblank).dropWhile hword).dropWhile_of_outside hblank
  simp only [cutArgument?] at h
  split at h
  next => simp at h
  next =>
    simp only [Option.map_eq_some_iff, Prod.mk.injEq] at h
    obtain ⟨left, hcomma, ⟨-, rfl⟩, rfl⟩ := h
    refine ⟨hnamed.takeWhile hname, ?_⟩
    have hskip := (hnamed.dropWhile hname).dropWhile_of_outside hblank
    unfold afterComma? at hcomma
    split at hcomma
    next =>
      rw [Option.some.injEq] at hcomma
      exact hcomma ▸ noModifier_nil
    next left hdrop =>
      rw [Option.some.injEq] at hcomma
      rw [hdrop, noModifier_cons_iff (by decide)] at hskip
      exact hcomma ▸ hskip
    next => simp at hcomma

theorem isName_of_readArguments {s : List Char} {arguments : List (String × String)}
    (hs : NoModifier s) (h : readArguments s = .ok arguments) :
    ∀ a ∈ arguments, IsName a.2.toList := by
  fun_induction readArguments s generalizing arguments with
  | case1 s hempty =>
      rw [Except.ok.injEq] at h
      simp [← h]
  | case2 s hne hcut => simp at h
  | case3 s hne type name rest hcut _ hname ih =>
      obtain ⟨hmodifier, hrest⟩ := noModifier_of_cutArgument? hs hcut
      rw [noModifier_iff_of_isIdentifier hname] at hmodifier
      cases hread : readArguments rest with
      | error flaw => simp [hread, Except.map] at h
      | ok read =>
          simp only [hread, Except.map, Except.ok.injEq] at h
          rw [← h, List.forall_mem_cons]
          refine ⟨?_, ih hrest hread⟩
          simpa [IsName] using ⟨hname, hmodifier⟩
  | case4 s hne type name rest hcut _ hname => simp at h

/-- The method and the arguments of a signature that can be taken apart have names that are
identifiers and no modifiers. -/
theorem isName_of_tokenize {signature : String} {tokens : Tokens}
    (h : tokenize signature = .ok tokens) :
    IsName tokens.name.toList ∧ ∀ a ∈ tokens.arguments, IsName a.2.toList := by
  unfold tokenize at h
  dsimp only at h
  split at h
  next => simp at h
  next resultType name arguments houtline =>
    obtain ⟨hmodifier, harguments⟩ := noModifier_of_outline? (noModifier_clean _) houtline
    split at h
    next hname =>
      rw [noModifier_iff_of_isIdentifier hname] at hmodifier
      rw [tokenizeArguments, String.toList_ofList] at h
      cases hread : readArguments (strip arguments) with
      | error flaw => simp [hread, Except.map, Except.mapError] at h
      | ok read =>
          simp only [hread, Except.map, Except.mapError, Except.ok.injEq] at h
          rw [← h]
          refine ⟨by simpa [IsName] using ⟨hname, hmodifier⟩, ?_⟩
          exact isName_of_readArguments (noModifier_strip harguments) hread
    next => simp at h

end MethodSig.Signature
