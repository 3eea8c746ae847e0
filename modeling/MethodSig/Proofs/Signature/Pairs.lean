import Mathlib.Data.List.Induction
import Mathlib.Logic.Function.Iterate
import MethodSig.Proofs.Signature.Generics

/-!
# Characters in no pair of brackets

Opening and closing brackets are paired like parentheses: a pass from left to right keeps the
places of the open brackets on a stack, and a closing bracket belongs to the one on top. What is
left of a text without its type parameters are the characters that lie in no pair.
-/

namespace MethodSig.Signature

/-- The brackets of the text that has been read, by their places. -/
structure Matching where
  /-- The places of the brackets that are open, the innermost first. -/
  opened : List ℕ
  /-- The places of the two brackets of each pair. -/
  pairs : List (ℕ × ℕ)

def Matching.read (m : Matching) (entry : Char × ℕ) : Matching :=
  if entry.1 = '<' then ⟨entry.2 :: m.opened, m.pairs⟩
  else if entry.1 = '>' then
    match m.opened with
    | [] => m
    | i :: others => ⟨others, (i, entry.2) :: m.pairs⟩
  else m

/-- The places of the brackets of a text. -/
def matching (s : List Char) : Matching :=
  s.zipIdx.foldl Matching.read ⟨[], []⟩

/-- A place that lies neither between the brackets of a pair nor at one of them. -/
def isUnpaired (pairs : List (ℕ × ℕ)) (i : ℕ) : Bool :=
  pairs.all fun pair => i < pair.1 || pair.2 < i

/-- The characters with their places that lie in no pair of brackets. -/
def unpairedEntries (s : List Char) : List (Char × ℕ) :=
  s.zipIdx.filter fun entry => isUnpaired (matching s).pairs entry.2

/-- The characters of a text that lie in no pair of brackets, in their order. -/
def unpaired (s : List Char) : List Char :=
  (unpairedEntries s).map Prod.fst

/-! ## The two passes agree -/

/-- The entries are the characters that a pass keeps, with the places of the open brackets among
them. -/
inductive Keeps : List (Char × ℕ) → List ℕ → Brackets → Prop
  | outermost (text : List (Char × ℕ)) : Keeps text [] ⟨[], text.map Prod.fst⟩
  | within {kept text : List (Char × ℕ)} {opened : List ℕ} {b : Brackets} {i : ℕ}
      (h : Keeps kept opened b) (hkept : ∀ e ∈ kept, e.2 < i) (htext : ∀ e ∈ text, i < e.2) :
      Keeps (kept ++ ('<', i) :: text) (i :: opened) ⟨b.text :: b.before, text.map Prod.fst⟩

namespace Keeps

variable {kept : List (Char × ℕ)} {opened : List ℕ} {b : Brackets}

theorem map_fst_eq_left (h : Keeps kept opened b) : kept.map Prod.fst = b.left := by
  induction h with
  | outermost text => rfl
  | @within kept text opened b i _ _ _ ih =>
      rw [List.map_append, List.map_cons, ih]
      exact (Brackets.left_append b.before b.text _).symm

theorem before_eq_nil (h : Keeps kept [] b) : b.before = [] := by
  cases h with
  | outermost => rfl

/-- A further character that is kept stands behind the innermost open bracket. -/
theorem append (h : Keeps kept opened b) {c : Char} {n : ℕ} (hlast : ∀ e ∈ kept, e.2 < n) :
    Keeps (kept ++ [(c, n)]) opened ⟨b.before, b.text ++ [c]⟩ := by
  cases h with
  | outermost =>
      have h := Keeps.outermost (kept ++ [(c, n)])
      rwa [List.map_append] at h
  | @within kept text opened b i h hkept htext =>
      have hi : i < n := hlast ('<', i) (by simp)
      have htext' : ∀ e ∈ text ++ [(c, n)], i < e.2 :=
        List.forall_mem_append.mpr ⟨htext, List.forall_mem_singleton.mpr hi⟩
      have h := Keeps.within h hkept htext'
      rwa [List.map_append, ← List.cons_append, ← List.append_assoc] at h

/-- When the innermost open bracket is closed, what stands in front of it is left. -/
theorem filter_of_cons {i n : ℕ} (h : Keeps kept (i :: opened) b) (hlast : ∀ e ∈ kept, e.2 < n) :
    i < n ∧ ∃ outer others, b.before = outer :: others ∧
      Keeps (kept.filter fun e => e.2 < i || n < e.2) opened ⟨others, outer⟩ := by
  cases h with
  | @within kept text _ b _ h hkept htext =>
      refine ⟨hlast ('<', i) (by simp), b.text, b.before, rfl, ?_⟩
      have hin : kept.filter (fun e => e.2 < i || n < e.2) = kept := by
        refine List.filter_eq_self.mpr ?_
        intro e he
        simp [hkept e he]
      have hout : (('<', i) :: text).filter (fun e => e.2 < i || n < e.2) = [] := by
        rw [List.filter_eq_nil_iff]
        intro e he
        have hn : e.2 < n := hlast e (List.mem_append_right _ he)
        have hi : i ≤ e.2 := by
          rcases List.mem_cons.mp he with rfl | he
          · exact le_refl _
          · exact (htext e he).le
        simp only [Bool.or_eq_true, decide_eq_true_eq]
        omega
      rw [List.filter_append, hin, hout, List.append_nil]
      exact h

end Keeps

/-! ### One character more -/

theorem matching_concat (s : List Char) (c : Char) :
    matching (s ++ [c]) = (matching s).read (c, s.length) := by
  simp [matching, List.zipIdx_append]

theorem snd_lt_of_mem_unpairedEntries {s : List Char} :
    ∀ e ∈ unpairedEntries s, e.2 < s.length := by
  intro e he
  have hmem := (List.mem_filter.mp he).1
  simpa using List.snd_lt_of_mem_zipIdx hmem

/-- A pair lies within the text that has been read. -/
theorem snd_lt_of_mem_pairs (s : List Char) : ∀ pair ∈ (matching s).pairs, pair.2 < s.length := by
  induction s using List.reverseRecOn with
  | nil => simp [matching]
  | append_singleton s c ih =>
      have hle : ∀ pair ∈ (matching s).pairs, pair.2 < (s ++ [c]).length := by
        intro pair hpair
        have := ih pair hpair
        rw [List.length_append]
        omega
      rw [matching_concat, Matching.read]
      split
      · exact hle
      · split
        · split
          · exact hle
          · exact List.forall_mem_cons.mpr ⟨by simp, hle⟩
        · exact hle

/-- A character that closes no pair lies in none. -/
theorem unpairedEntries_concat {s : List Char} {c : Char}
    (h : (matching (s ++ [c])).pairs = (matching s).pairs) :
    unpairedEntries (s ++ [c]) = unpairedEntries s ++ [(c, s.length)] := by
  have hlast : isUnpaired (matching s).pairs s.length = true := by
    refine List.all_eq_true.mpr ?_
    intro pair hpair
    simp [snd_lt_of_mem_pairs s pair hpair]
  simp [unpairedEntries, h, List.zipIdx_append, hlast]

/-- A character that closes a pair lies in it, and so does what the pair encloses. -/
theorem unpairedEntries_concat_of_pair {s : List Char} {c : Char} {i : ℕ} (hi : i < s.length)
    (h : (matching (s ++ [c])).pairs = (i, s.length) :: (matching s).pairs) :
    unpairedEntries (s ++ [c]) =
      (unpairedEntries s).filter fun e => e.2 < i || s.length < e.2 := by
  have hlast : isUnpaired ((i, s.length) :: (matching s).pairs) s.length = false := by
    rw [isUnpaired, List.all_cons, Bool.and_eq_false_iff]
    left
    simp [hi.le]
  have hend : [(c, s.length)].filter
      (fun e => isUnpaired ((i, s.length) :: (matching s).pairs) e.2) = [] := by
    rw [List.filter_cons_of_neg (by simp [hlast]), List.filter_nil]
  rw [unpairedEntries, h, List.zipIdx_append, List.filter_append, List.zipIdx_singleton,
    Nat.zero_add, hend, List.append_nil, unpairedEntries, List.filter_filter]
  rfl

/-- What the pass from left to right keeps are the characters in no pair. -/
theorem keeps_foldl_read (s : List Char) :
    Keeps (unpairedEntries s) (matching s).opened (s.foldl Brackets.read ⟨[], []⟩) := by
  induction s using List.reverseRecOn with
  | nil => exact .outermost []
  | append_singleton s c ih =>
      have hlast := @snd_lt_of_mem_unpairedEntries s
      have hconcat := matching_concat s c
      rw [List.foldl_append, List.foldl_cons, List.foldl_nil]
      by_cases hopening : c = '<'
      · have hread : (matching s).read (c, s.length) =
            ⟨s.length :: (matching s).opened, (matching s).pairs⟩ := if_pos hopening
        rw [hread] at hconcat
        rw [unpairedEntries_concat (by rw [hconcat]), hconcat, Brackets.read, if_pos hopening,
          hopening]
        exact .within ih hlast (List.forall_mem_nil _)
      by_cases hclosing : c = '>'
      · have hread : (matching s).read (c, s.length) = _ :=
          (if_neg hopening).trans (if_pos hclosing)
        rw [hread] at hconcat
        rw [Brackets.read, if_neg hopening, if_pos hclosing]
        cases hopened : (matching s).opened with
        | nil =>
            simp only [hopened] at hconcat
            rw [hopened] at ih
            rw [unpairedEntries_concat (by rw [hconcat]), hconcat, hopened, hclosing]
            have hkeeps := @Keeps.append _ _ _ ih '>' _ hlast
            rw [ih.before_eq_nil] at hkeeps ⊢
            exact hkeeps
        | cons i others =>
            simp only [hopened] at hconcat
            rw [hopened] at ih
            obtain ⟨hi, outer, before, hbefore, hkeeps⟩ := ih.filter_of_cons hlast
            rw [unpairedEntries_concat_of_pair hi (by rw [hconcat]), hconcat, hbefore]
            exact hkeeps
      · have hread : (matching s).read (c, s.length) = matching s :=
          (if_neg hopening).trans (if_neg hclosing)
        rw [hread] at hconcat
        rw [unpairedEntries_concat (by rw [hconcat]), hconcat,
          Brackets.read_of_plain _ (by simp [isAngle, hopening, hclosing])]
        exact ih.append hlast

theorem outside_eq_unpaired (s : List Char) : outside s = unpaired s :=
  (keeps_foldl_read s).map_fst_eq_left.symm

/-! ## The passes from the inside out -/

theorem removeInnermost_removeTypeParameters (s : List Char) :
    removeInnermost (removeTypeParameters s) = removeTypeParameters s := by
  fun_induction removeTypeParameters s with
  | case1 s h => exact h
  | case2 s h _ ih => exact ih

/-- After some number of passes a further one changes nothing. -/
theorem exists_iterate_removeInnermost_eq (s : List Char) :
    ∃ n, removeInnermost^[n] s = removeTypeParameters s := by
  fun_induction removeTypeParameters s with
  | case1 s h => exact ⟨0, rfl⟩
  | case2 s h _ ih =>
      obtain ⟨n, hn⟩ := ih
      exact ⟨n + 1, hn⟩

/-- The passes come to an end, and what they leave are the characters in no pair of brackets, so
no opening bracket stands in front of a closing one. -/
theorem removeTypeParameters_eq_unpaired (s : List Char) :
    (∃ n, removeInnermost^[n] s = removeTypeParameters s ∧
      removeInnermost^[n + 1] s = removeTypeParameters s) ∧
      removeTypeParameters s = unpaired s ∧
      ∃ u v, removeTypeParameters s = u ++ v ∧ '<' ∉ u ∧ '>' ∉ v := by
  have hstable := removeInnermost_removeTypeParameters s
  obtain ⟨n, hn⟩ := exists_iterate_removeInnermost_eq s
  refine ⟨⟨n, hn, ?_⟩, ?_, ?_⟩
  · rw [Function.iterate_succ_apply', hn, hstable]
  · rw [removeTypeParameters_eq_outside, outside_eq_unpaired]
  · exact exists_append_of_removeTypeParameters s

example : unpaired "a<b<c>d>e>f<g<h>".toList = "ae>f<g".toList := by
  decide

end MethodSig.Signature
