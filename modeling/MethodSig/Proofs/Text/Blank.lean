import Mathlib.Data.List.TakeWhile
import MethodSig.Text.Blank

/-!
# Words of a text

A blank cuts the words of a text into those before it and those after it. A text whose words have
single spaces between them stays as it is when its blanks are collapsed.
-/

namespace MethodSig.Text

/-! ## Where a text is cut -/

section Cut

variable {p : Char → Bool} {c : Char} {u v : List Char}

/-- What is taken from a text ends before the first character that fails the test. -/
theorem takeWhile_append_cons_of_neg (hc : p c = false) (s t : List Char) :
    (s ++ c :: t).takeWhile p = s.takeWhile p := by
  induction s with
  | nil => simp [hc]
  | cons a s ih =>
      rw [List.cons_append, List.takeWhile_cons, List.takeWhile_cons, ih]

theorem dropWhile_append_cons_of_neg (hc : p c = false) (s t : List Char) :
    (s ++ c :: t).dropWhile p = s.dropWhile p ++ c :: t := by
  induction s with
  | nil => simp [hc]
  | cons a s ih =>
      rw [List.cons_append, List.dropWhile_cons, List.dropWhile_cons, ih]
      split <;> rfl

/-- A run ends where a character fails the test. -/
theorem takeWhile_append_of_head (hu : ∀ c ∈ u, p c = true) (hv : ∀ c ∈ v.head?, p c = false) :
    (u ++ v).takeWhile p = u := by
  rw [List.takeWhile_append_of_pos hu]
  cases v with
  | nil => simp
  | cons c v => simp [hv c rfl]

theorem dropWhile_append_of_head (hu : ∀ c ∈ u, p c = true) (hv : ∀ c ∈ v.head?, p c = false) :
    (u ++ v).dropWhile p = v := by
  rw [List.dropWhile_append_of_pos hu]
  cases v with
  | nil => rfl
  | cons c v => simp [hv c rfl]

/-- A text that begins with a run begins with one of its characters. -/
theorem forall_mem_head?_append {P : Char → Prop} (hne : u ≠ []) (hu : ∀ c ∈ u, P c) :
    ∀ c ∈ (u ++ v).head?, P c := by
  obtain ⟨c, u, rfl⟩ := List.exists_cons_of_ne_nil hne
  intro d hd
  rw [List.cons_append, List.head?_cons, Option.mem_some_iff] at hd
  exact hd ▸ hu c List.mem_cons_self

theorem splitOn_eq_singleton {s : List Char} (h : c ∉ s) : s.splitOn c = [s] := by
  refine List.splitOnP_eq_singleton ?_
  intro d hd
  rw [beq_eq_false_iff_ne]
  rintro rfl
  exact h hd

/-- A text is cut in one way only at the last place of a character. -/
theorem append_cons_inj_of_last {s t u v : List Char} (hs : c ∉ s) (ht : c ∉ t) :
    u ++ c :: s = v ++ c :: t ↔ u = v ∧ s = t := by
  refine ⟨?_, fun h => h.1 ▸ h.2 ▸ rfl⟩
  intro h
  rcases List.append_eq_append_iff.mp h with ⟨w, rfl, hw⟩ | ⟨w, rfl, hw⟩
  · cases w with
    | nil => simpa using hw
    | cons d w => simp [(List.cons.inj hw).2] at hs
  · cases w with
    | nil => simpa [eq_comm] using hw
    | cons d w => simp [(List.cons.inj hw).2] at ht

end Cut

/-! ## Words -/

theorem words_eq_nil {s : List Char} (h : s.dropWhile isBlank = []) : words s = [] := by
  rw [words]
  split
  next => rfl
  next c r hcons => simp [hcons] at h

theorem words_eq_cons {s r : List Char} {c : Char} (h : s.dropWhile isBlank = c :: r) :
    words s = (c :: r.takeWhile (!isBlank ·)) :: words (r.dropWhile (!isBlank ·)) := by
  rw [words]
  split
  next hnil => simp [hnil] at h
  next c' r' hcons =>
    rw [h, List.cons.injEq] at hcons
    obtain ⟨rfl, rfl⟩ := hcons
    rfl

@[simp] theorem words_nil : words [] = [] :=
  words_eq_nil rfl

/-- Words depend only on what follows the leading blanks. -/
theorem words_congr {s t : List Char} (h : s.dropWhile isBlank = t.dropWhile isBlank) :
    words s = words t := by
  cases ht : t.dropWhile isBlank with
  | nil => rw [words_eq_nil ht, words_eq_nil (h.trans ht)]
  | cons c r => rw [words_eq_cons (h.trans ht), words_eq_cons ht]

/-- A blank cuts the words before it from those after it. -/
theorem words_append_cons {c : Char} (hc : isBlank c = true) (s t : List Char) :
    words (s ++ c :: t) = words s ++ words t := by
  fun_induction words s with
  | case1 s hnil =>
      have hdrop : (s ++ c :: t).dropWhile isBlank = t.dropWhile isBlank := by
        rw [List.dropWhile_append, hnil]
        simp [hc]
      rw [words_congr hdrop, List.nil_append]
  | case2 s d r hcons _ ih =>
      have hdrop : (s ++ c :: t).dropWhile isBlank = d :: (r ++ c :: t) := by
        rw [List.dropWhile_append, hcons]
        rfl
      have hstop : (!isBlank c) = false := by simp [hc]
      rw [words_eq_cons hdrop, takeWhile_append_cons_of_neg hstop,
        dropWhile_append_cons_of_neg hstop, ih, List.cons_append]

/-- A text that is not empty and holds no blank is its only word. -/
theorem words_eq_singleton {w : List Char} (hne : w ≠ []) (hw : ∀ c ∈ w, isBlank c = false) :
    words w = [w] := by
  cases w with
  | nil => contradiction
  | cons c r =>
      obtain ⟨hc, hr⟩ := List.forall_mem_cons.mp hw
      have htake : r.takeWhile (!isBlank ·) = r := List.takeWhile_eq_self_iff.mpr (by simpa using hr)
      have hdrop : r.dropWhile (!isBlank ·) = [] := List.dropWhile_eq_nil_iff.mpr (by simpa using hr)
      rw [words_eq_cons (List.dropWhile_cons_of_neg (by simp [hc])), htake, hdrop, words_nil]

theorem words_eq_nil_iff {s : List Char} : words s = [] ↔ ∀ c ∈ s, isBlank c = true := by
  rw [← List.dropWhile_eq_nil_iff]
  constructor
  · intro h
    cases hdrop : s.dropWhile isBlank with
    | nil => rfl
    | cons c r => simp [words_eq_cons hdrop] at h
  · exact words_eq_nil

/-- A word that is followed by a blank or the end comes before the words of what follows it. -/
theorem words_append_word {blanks w rest : List Char} (hblanks : ∀ c ∈ blanks, isBlank c = true)
    (hne : w ≠ []) (hw : ∀ c ∈ w, isBlank c = false)
    (hrest : ∀ c ∈ rest.head?, isBlank c = true) :
    words (blanks ++ (w ++ rest)) = w :: words rest := by
  obtain ⟨c, r, rfl⟩ := List.exists_cons_of_ne_nil hne
  obtain ⟨hc, hr⟩ := List.forall_mem_cons.mp hw
  have hr : ∀ d ∈ r, (!isBlank d) = true := by simpa using hr
  have hrest : ∀ d ∈ rest.head?, (!isBlank d) = false := by simpa using hrest
  have hdrop : (blanks ++ (c :: r ++ rest)).dropWhile isBlank = c :: (r ++ rest) := by
    rw [List.dropWhile_append_of_pos hblanks, List.cons_append,
      List.dropWhile_cons_of_neg (by simp [hc])]
  rw [words_eq_cons hdrop, takeWhile_append_of_head hr hrest, dropWhile_append_of_head hr hrest]

/-- The first word of a text stands behind blanks and in front of a blank or the end. -/
theorem exists_append_of_words_eq_cons {s w : List Char} {ws : List (List Char)}
    (h : words s = w :: ws) :
    ∃ blanks rest, s = blanks ++ (w ++ rest) ∧ (∀ c ∈ blanks, isBlank c = true) ∧ w ≠ [] ∧
      (∀ c ∈ w, isBlank c = false) ∧ (∀ c ∈ rest.head?, isBlank c = true) ∧ words rest = ws := by
  cases hdrop : s.dropWhile isBlank with
  | nil => simp [words_eq_nil hdrop] at h
  | cons c r =>
      rw [words_eq_cons hdrop, List.cons.injEq] at h
      obtain ⟨rfl, rfl⟩ := h
      have hc := List.head?_dropWhile_not isBlank s
      have hhead := List.head?_dropWhile_not (!isBlank ·) r
      refine ⟨s.takeWhile isBlank, r.dropWhile (!isBlank ·), ?_, ?_, by simp, ?_, ?_, rfl⟩
      · rw [List.cons_append, List.takeWhile_append_dropWhile, ← hdrop,
          List.takeWhile_append_dropWhile]
      · exact fun d hd => List.mem_takeWhile_imp hd
      · refine List.forall_mem_cons.mpr ⟨?_, ?_⟩
        · simpa [hdrop] using hc
        · exact fun d hd => by simpa using List.mem_takeWhile_imp hd
      · intro d hd
        rw [Option.mem_def] at hd
        simpa [hd] using hhead

/-- Only blanks are stripped. -/
theorem mem_strip {s : List Char} {c : Char} (hmem : c ∈ s) (hc : isBlank c = false) :
    c ∈ strip s := by
  have hkept {t : List Char} (hmem : c ∈ t) : c ∈ t.dropWhile isBlank := by
    rw [← List.takeWhile_append_dropWhile (p := isBlank) (l := t), List.mem_append] at hmem
    refine hmem.resolve_left ?_
    intro htake
    have := List.mem_takeWhile_imp htake
    rw [hc] at this
    contradiction
  rw [strip, List.mem_reverse]
  exact hkept (List.mem_reverse.mpr (hkept hmem))

theorem removeBlanks_eq_self {s : List Char} (h : ∀ c ∈ s, isBlank c = false) :
    removeBlanks s = s := by
  refine List.filter_eq_self.mpr ?_
  intro c hc
  rw [h c hc]
  rfl

/-! ## Single spaces -/

theorem isBlank_space : isBlank ' ' = true := by
  decide

theorem dropWhile_isBlank_append {w : List Char} (hne : w ≠ [])
    (hw : ∀ c ∈ w, isBlank c = false) (rest : List Char) :
    (w ++ rest).dropWhile isBlank = w ++ rest := by
  obtain ⟨c, w, rfl⟩ := List.exists_cons_of_ne_nil hne
  exact List.dropWhile_cons_of_neg (by simp [hw c])

/-- The text consists of words with a space between neighbours. -/
inductive SingleSpaced : List Char → Prop where
  | word {w : List Char} (hne : w ≠ []) (hw : ∀ c ∈ w, isBlank c = false) : SingleSpaced w
  | cons {w s : List Char} (hne : w ≠ []) (hw : ∀ c ∈ w, isBlank c = false)
      (hs : SingleSpaced s) : SingleSpaced (w ++ ' ' :: s)

namespace SingleSpaced

variable {s t : List Char}

theorem ne_nil (hs : SingleSpaced s) : s ≠ [] := by
  cases hs with
  | word hne hw => exact hne
  | cons hne hw hs => simp

theorem words_ne_nil (hs : SingleSpaced s) : words s ≠ [] := by
  cases hs with
  | word hne hw => simp [words_eq_singleton hne hw]
  | cons hne hw hs => simp [words_append_cons isBlank_space, words_eq_singleton hne hw]

theorem append (hs : SingleSpaced s) (ht : SingleSpaced t) : SingleSpaced (s ++ t) := by
  induction hs with
  | @word w hne hw =>
      cases ht with
      | @word v hne' hv =>
          exact .word (by simp [hne]) (List.forall_mem_append.mpr ⟨hw, hv⟩)
      | @cons v t hne' hv ht =>
          rw [← List.append_assoc]
          exact .cons (by simp [hne]) (List.forall_mem_append.mpr ⟨hw, hv⟩) ht
  | @cons w s hne hw hs ih =>
      rw [List.append_assoc, List.cons_append]
      exact .cons hne hw ih

theorem append_space (hs : SingleSpaced s) (ht : SingleSpaced t) :
    SingleSpaced (s ++ ' ' :: t) := by
  induction hs with
  | word hne hw => exact .cons hne hw ht
  | @cons w s hne hw hs ih =>
      rw [List.append_assoc, List.cons_append]
      exact .cons hne hw ih

theorem collapse_eq_self (hs : SingleSpaced s) : collapse s = s := by
  induction hs with
  | word hne hw => simp [collapse, words_eq_singleton hne hw]
  | @cons w s hne hw hs ih =>
      obtain ⟨v, rest, hv⟩ := List.exists_cons_of_ne_nil hs.words_ne_nil
      rw [collapse, hv] at ih
      rw [collapse, words_append_cons isBlank_space, words_eq_singleton hne hw, hv,
        List.singleton_append, List.intercalate_cons_cons, ih, List.append_assoc,
        List.singleton_append]

theorem dropWhile_isBlank (hs : SingleSpaced s) : s.dropWhile isBlank = s := by
  cases hs with
  | word hne hw => simpa using dropWhile_isBlank_append hne hw []
  | cons hne hw hs => exact dropWhile_isBlank_append hne hw _

theorem reverse (hs : SingleSpaced s) : SingleSpaced s.reverse := by
  induction hs with
  | @word w hne hw => exact .word (by simpa using hne) (by simpa using hw)
  | @cons w s hne hw hs ih =>
      rw [List.reverse_append, List.reverse_cons, List.append_assoc, List.singleton_append]
      exact ih.append_space (.word (by simpa using hne) (by simpa using hw))

theorem strip_eq_self (hs : SingleSpaced s) : strip s = s := by
  rw [strip, hs.dropWhile_isBlank, hs.reverse.dropWhile_isBlank, List.reverse_reverse]

end SingleSpaced

end MethodSig.Text
