import Mathlib.Data.List.Induction
import MethodSig.Proofs.Text.Blank

/-!
# Blanks that are put into a text

A blank put beside a blank or at an end of a text leaves the words of the text as they are. Anywhere
else it cuts a word in two. The characters that are not blank stay what they are in either case.
-/

namespace MethodSig.Text

variable {s t u v : List Char} {b c : Char}

/-! ## Words -/

theorem words_cons_of_isBlank (hb : isBlank b = true) (s : List Char) :
    words (b :: s) = words s := by
  rw [← List.nil_append (b :: s), words_append_cons hb, words_nil, List.nil_append]

theorem words_concat_of_isBlank (hb : isBlank b = true) (s : List Char) :
    words (s ++ [b]) = words s := by
  rw [words_append_cons hb, words_nil, List.append_nil]

/-- The words of two texts are kept apart by a blank at the beginning of the second. -/
theorem words_append_of_head (h : ∀ c ∈ v.head?, isBlank c = true) (u : List Char) :
    words (u ++ v) = words u ++ words v := by
  cases v with
  | nil => rw [List.append_nil, words_nil, List.append_nil]
  | cons c v => rw [words_append_cons (h c rfl), words_cons_of_isBlank (h c rfl)]

/-- The words of two texts are kept apart by a blank at the end of the first. -/
theorem words_append_of_getLast (h : ∀ c ∈ u.getLast?, isBlank c = true) (v : List Char) :
    words (u ++ v) = words u ++ words v := by
  induction u using List.reverseRecOn with
  | nil => rw [List.nil_append, words_nil, List.nil_append]
  | append_singleton u c _ =>
      have hc : isBlank c = true := h c (by simp)
      rw [List.append_assoc, List.singleton_append, words_append_cons hc,
        words_concat_of_isBlank hc]

theorem words_cons_of_head (hc : isBlank c = false) (h : ∀ d ∈ s.head?, isBlank d = true) :
    words (c :: s) = [c] :: words s := by
  have hw : ∀ d ∈ [c], isBlank d = false := List.forall_mem_singleton.mpr hc
  exact words_append_word (List.forall_mem_nil _) (List.cons_ne_nil c []) hw h

/-- A character in front of a word becomes a part of that word. -/
theorem length_words_cons_cons (hb : isBlank b = false) (hc : isBlank c = false)
    (s : List Char) : (words (b :: c :: s)).length = (words (c :: s)).length := by
  have hb' : (b :: c :: s).dropWhile isBlank = b :: c :: s :=
    List.dropWhile_cons_of_neg (by simp [hb])
  have hc' : (c :: s).dropWhile isBlank = c :: s := List.dropWhile_cons_of_neg (by simp [hc])
  have hskip : (c :: s).dropWhile (!isBlank ·) = s.dropWhile (!isBlank ·) :=
    List.dropWhile_cons_of_pos (by simp [hc])
  rw [words_eq_cons hb', words_eq_cons hc', hskip, List.length_cons, List.length_cons]

/-- Where neither neighbour is blank the end of one text and the beginning of the next are one
word. -/
theorem length_words_append (hb : isBlank b = false) (hc : isBlank c = false)
    (u v : List Char) :
    (words (u ++ b :: c :: v)).length + 1 =
      (words (u ++ [b])).length + (words (c :: v)).length := by
  induction u with
  | nil =>
      rw [List.nil_append, List.nil_append, length_words_cons_cons hb hc,
        words_cons_of_head hb (by simp), words_nil, List.length_singleton]
      omega
  | cons a u ih =>
      rw [List.cons_append, List.cons_append]
      by_cases ha : isBlank a = true
      · rw [words_cons_of_isBlank ha, words_cons_of_isBlank ha, ih]
      rw [Bool.not_eq_true] at ha
      -- what follows the first character begins in the same way in both texts
      obtain ⟨d, rest, rest', hlong, hshort⟩ : ∃ d rest rest',
          u ++ b :: c :: v = d :: rest ∧ u ++ [b] = d :: rest' := by
        cases u with
        | nil => exact ⟨b, c :: v, [], rfl, rfl⟩
        | cons d u => exact ⟨d, u ++ b :: c :: v, u ++ [b], rfl, rfl⟩
      rw [hlong, hshort] at ih ⊢
      by_cases hd : isBlank d = true
      · rw [words_cons_of_head ha (by simp [hd]), words_cons_of_head ha (by simp [hd]),
          List.length_cons, List.length_cons]
        omega
      · rw [Bool.not_eq_true] at hd
        rw [length_words_cons_cons ha hd, length_words_cons_cons ha hd, ih]

/-- The place between the two texts is at a blank or at an end. -/
def IsGap (u v : List Char) : Prop :=
  (∀ c ∈ u.getLast?, isBlank c = true) ∨ ∀ c ∈ v.head?, isBlank c = true

theorem words_insert_of_isGap (h : IsGap u v) (hb : isBlank b = true) :
    words (u ++ b :: v) = words (u ++ v) := by
  rw [words_append_cons hb]
  rcases h with h | h
  · exact (words_append_of_getLast h v).symm
  · exact (words_append_of_head h u).symm

/-- A blank cuts a word in two where it is put between characters that are not blank. -/
theorem length_words_insert_of_not_isGap (h : ¬ IsGap u v) (hb : isBlank b = true) :
    words (u ++ v) ≠ [] ∧ (words (u ++ b :: v)).length = (words (u ++ v)).length + 1 := by
  simp only [IsGap, not_or, not_forall, Bool.not_eq_true, exists_prop] at h
  obtain ⟨⟨c, hlast, hc⟩, d, hhead, hd⟩ := h
  obtain ⟨u, rfl⟩ := List.getLast?_eq_some_iff.mp hlast
  obtain ⟨v, rfl⟩ := List.head?_eq_some_iff.mp hhead
  have hlength := length_words_append hc hd u v
  rw [List.append_assoc, List.singleton_append, words_append_cons hb, List.length_append]
  refine ⟨?_, hlength.symm⟩
  rw [Ne, words_eq_nil_iff]
  intro hall
  have hblank := hall c (by simp)
  rw [hc] at hblank
  contradiction

/-! ## Characters that are not blank -/

theorem removeBlanks_append (s t : List Char) :
    removeBlanks (s ++ t) = removeBlanks s ++ removeBlanks t :=
  List.filter_append s t

theorem removeBlanks_cons_of_isBlank (hb : isBlank b = true) (s : List Char) :
    removeBlanks (b :: s) = removeBlanks s :=
  List.filter_cons_of_neg (by simp [hb])

theorem removeBlanks_cons_of_not_isBlank (hc : isBlank c = false) (s : List Char) :
    removeBlanks (c :: s) = c :: removeBlanks s :=
  List.filter_cons_of_pos (by simp [hc])

theorem removeBlanks_eq_nil_iff : removeBlanks s = [] ↔ ∀ c ∈ s, isBlank c = true := by
  simp [removeBlanks]

theorem mem_removeBlanks_iff (hc : isBlank c = false) : c ∈ removeBlanks s ↔ c ∈ s := by
  simp [removeBlanks, hc]

theorem mem_iff_of_removeBlanks_eq (hc : isBlank c = false)
    (h : removeBlanks s = removeBlanks t) : c ∈ s ↔ c ∈ t := by
  rw [← mem_removeBlanks_iff hc, h, mem_removeBlanks_iff hc]

theorem removeBlanks_insert (hb : isBlank b = true) (u v : List Char) :
    removeBlanks (u ++ b :: v) = removeBlanks (u ++ v) := by
  rw [removeBlanks_append, removeBlanks_append, removeBlanks_cons_of_isBlank hb]

/-- A character that is not blank stands in a text wherever it stands in the text without
blanks. -/
theorem exists_append_cons_of_removeBlanks (h : removeBlanks s = u ++ c :: v) :
    ∃ x y, s = x ++ c :: y ∧ removeBlanks x = u ∧ removeBlanks y = v := by
  obtain ⟨x, rest, rfl, hx, hrest⟩ := List.filter_eq_append_iff.mp h
  obtain ⟨blanks, y, rfl, hblanks, -, hy⟩ := List.filter_eq_cons_iff.mp hrest
  refine ⟨x ++ blanks, y, (List.append_assoc x blanks (c :: y)).symm, ?_, hy⟩
  have hnone : removeBlanks blanks = [] := List.filter_eq_nil_iff.mpr hblanks
  rw [removeBlanks_append, hnone, List.append_nil]
  exact hx

theorem flatten_words (s : List Char) : (words s).flatten = removeBlanks s := by
  induction hwords : words s generalizing s with
  | nil =>
      rw [words_eq_nil_iff] at hwords
      exact (removeBlanks_eq_nil_iff.mpr hwords).symm
  | cons w ws ih =>
      obtain ⟨blanks, rest, rfl, hblanks, -, hw, -, hrest⟩ :=
        exists_append_of_words_eq_cons hwords
      have hword : removeBlanks w = w := removeBlanks_eq_self hw
      rw [List.flatten_cons, ih rest hrest, removeBlanks_append,
        removeBlanks_eq_nil_iff.mpr hblanks, List.nil_append, removeBlanks_append, hword]

/-- Words are not empty and hold no blank. -/
theorem solid_of_mem_words {w : List Char} (h : w ∈ words s) :
    w ≠ [] ∧ ∀ c ∈ w, isBlank c = false := by
  induction hwords : words s generalizing s with
  | nil => simp [hwords] at h
  | cons v ws ih =>
      obtain ⟨_, rest, -, -, hne, hv, -, hrest⟩ := exists_append_of_words_eq_cons hwords
      rw [hwords, List.mem_cons] at h
      rcases h with rfl | h
      · exact ⟨hne, hv⟩
      · exact ih (hrest.symm ▸ h) hrest

theorem words_intercalate {ws : List (List Char)}
    (h : ∀ w ∈ ws, w ≠ [] ∧ ∀ c ∈ w, isBlank c = false) : words ([' '].intercalate ws) = ws := by
  induction ws with
  | nil => exact words_nil
  | cons w ws ih =>
      obtain ⟨⟨hne, hw⟩, hws⟩ := List.forall_mem_cons.mp h
      cases ws with
      | nil =>
          rw [List.intercalate_singleton]
          exact words_eq_singleton hne hw
      | cons v ws =>
          rw [List.intercalate_cons_cons, List.append_assoc, List.singleton_append,
            words_append_cons isBlank_space, words_eq_singleton hne hw, ih hws,
            List.singleton_append]

theorem singleSpaced_intercalate {ws : List (List Char)} (hne : ws ≠ [])
    (h : ∀ w ∈ ws, w ≠ [] ∧ ∀ c ∈ w, isBlank c = false) :
    SingleSpaced ([' '].intercalate ws) := by
  induction ws with
  | nil => contradiction
  | cons w ws ih =>
      obtain ⟨⟨hw_ne, hw⟩, hws⟩ := List.forall_mem_cons.mp h
      cases ws with
      | nil =>
          rw [List.intercalate_singleton]
          exact .word hw_ne hw
      | cons v ws =>
          rw [List.intercalate_cons_cons, List.append_assoc, List.singleton_append]
          exact .cons hw_ne hw (ih (List.cons_ne_nil v ws) hws)

theorem collapse_eq_nil_or_singleSpaced (s : List Char) :
    collapse s = [] ∨ SingleSpaced (collapse s) := by
  by_cases hne : words s = []
  · left
    rw [collapse, hne, List.intercalate_nil]
  · right
    exact singleSpaced_intercalate hne fun _ => solid_of_mem_words

theorem words_collapse (s : List Char) : words (collapse s) = words s :=
  words_intercalate fun _ => solid_of_mem_words

theorem removeBlanks_collapse (s : List Char) : removeBlanks (collapse s) = removeBlanks s := by
  rw [← flatten_words, words_collapse, flatten_words]

/-! ## Outer blanks -/

/-- A property that blanks at the ends do not change is not changed by stripping. -/
theorem strip_induction {α : Type} {f : List Char → α}
    (hcons : ∀ b s, isBlank b = true → f (b :: s) = f s)
    (hconcat : ∀ b s, isBlank b = true → f (s ++ [b]) = f s) (s : List Char) :
    f (strip s) = f s := by
  have hleft (s : List Char) : f (s.dropWhile isBlank) = f s := by
    induction s with
    | nil => rfl
    | cons b s ih =>
        rw [List.dropWhile_cons]
        split
        next hb => rw [ih, hcons b s hb]
        next => rfl
  have hright (s : List Char) : f (s.reverse.dropWhile isBlank).reverse = f s := by
    induction s using List.reverseRecOn with
    | nil => rfl
    | append_singleton s b ih =>
        rw [List.reverse_append, List.reverse_singleton, List.singleton_append,
          List.dropWhile_cons]
        split
        next hb => rw [ih, hconcat b s hb]
        next => rw [List.reverse_cons, List.reverse_reverse]
  rw [strip, hright, hleft]

theorem removeBlanks_strip (s : List Char) : removeBlanks (strip s) = removeBlanks s :=
  strip_induction (fun _ s hb => removeBlanks_cons_of_isBlank hb s)
    (fun b s hb => by rw [removeBlanks_insert hb, List.append_nil]) s

theorem strip_eq_nil_iff : strip s = [] ↔ removeBlanks s = [] := by
  constructor
  · intro h
    rw [← removeBlanks_strip, h]
    rfl
  · intro h
    rw [removeBlanks_eq_nil_iff] at h
    rw [strip, List.dropWhile_eq_nil_iff.mpr h]
    rfl

theorem strip_eq_singleton_iff (hc : isBlank c = false) :
    strip s = [c] ↔ removeBlanks s = [c] := by
  constructor
  · intro h
    rw [← removeBlanks_strip, h]
    exact removeBlanks_cons_of_not_isBlank hc []
  · intro h
    obtain ⟨x, y, rfl, hx, hy⟩ := exists_append_cons_of_removeBlanks (u := []) (v := []) h
    rw [removeBlanks_eq_nil_iff] at hx hy
    have hleft : (x ++ c :: y).dropWhile isBlank = c :: y := by
      rw [List.dropWhile_append_of_pos hx, List.dropWhile_cons_of_neg (by simp [hc])]
    have hright : (c :: y).reverse.dropWhile isBlank = [c] := by
      rw [List.reverse_cons, List.dropWhile_append_of_pos (by simpa using hy),
        List.dropWhile_cons_of_neg (by simp [hc])]
    rw [strip, hleft, hright, List.reverse_singleton]

end MethodSig.Text
