import Mathlib.Data.List.TakeWhile
import MethodSig.Signature.Generics
import MethodSig.Text.Blank

/-!
# Type parameters are matched brackets

Taking bracketed groups away from the inside out leaves the same text as matching the brackets in
one pass from left to right. A group whose brackets are balanced therefore leaves nothing behind,
whatever stands around it.
-/

namespace MethodSig.Signature

/-! ## One pass from left to right -/

/-- The text that has been read, without its matched brackets and what these enclose. -/
structure Brackets where
  /-- The texts in front of the brackets that are open, the innermost first. -/
  before : List (List Char)
  /-- The text behind the innermost open bracket. -/
  text : List Char

theorem isAngle_eq_false_of_notMem {s : List Char} (hopening : '<' ∉ s) (hclosing : '>' ∉ s) :
    ∀ c ∈ s, isAngle c = false := by
  intro c hc
  have hne : c ≠ '<' := fun h => hopening (h ▸ hc)
  have hne' : c ≠ '>' := fun h => hclosing (h ▸ hc)
  simp [isAngle, hne, hne']

theorem isAngle_eq_false_of_isBlank {c : Char} (hc : Text.isBlank c = true) :
    isAngle c = false := by
  rw [Bool.eq_false_iff]
  intro h
  simp only [isAngle, Bool.or_eq_true, decide_eq_true_eq] at h
  rcases h with rfl | rfl
  · contradiction
  · contradiction

/-- A group that is found consists of what stands up to and with the next closing bracket. -/
theorem eq_append_of_afterGroup? {s t : List Char} (h : afterGroup? s = some t) :
    ∃ inside, s = inside ++ '>' :: t ∧ ∀ c ∈ inside, isAngle c = false := by
  refine ⟨s.takeWhile (!isAngle ·), ?_, ?_⟩
  · unfold afterGroup? at h
    split at h
    next rest heq => rw [← Option.some.inj h, ← heq, List.takeWhile_append_dropWhile]
    next => simp at h
  · intro c hc
    simpa using List.mem_takeWhile_imp hc

theorem afterGroup?_append {inside : List Char} (h : ∀ c ∈ inside, isAngle c = false)
    (t : List Char) : afterGroup? (inside ++ '>' :: t) = some t := by
  have hdrop : (inside ++ '>' :: t).dropWhile (!isAngle ·) = '>' :: t := by
    rw [List.dropWhile_append_of_pos (by simpa using h)]
    rfl
  rw [afterGroup?, hdrop]
  rfl

namespace Brackets

def read (b : Brackets) (c : Char) : Brackets :=
  if c = '<' then ⟨b.text :: b.before, []⟩
  else if c = '>' then
    match b.before with
    | [] => ⟨[], b.text ++ ['>']⟩
    | outer :: others => ⟨others, outer⟩
  else ⟨b.before, b.text ++ [c]⟩

/-- The text that is left if nothing more is read. -/
def left (b : Brackets) : List Char :=
  b.before.foldl (fun inner outer => outer ++ '<' :: inner) b.text

theorem read_of_plain (b : Brackets) {c : Char} (h : isAngle c = false) :
    b.read c = ⟨b.before, b.text ++ [c]⟩ := by
  simp only [isAngle, Bool.or_eq_false_iff, decide_eq_false_iff_not] at h
  rw [read, if_neg h.1, if_neg h.2]

/-- Without opening brackets all that is read is kept. -/
theorem foldl_read_of_opening_notMem (text : List Char) {s : List Char} (h : '<' ∉ s) :
    s.foldl read ⟨[], text⟩ = ⟨[], text ++ s⟩ := by
  induction s generalizing text with
  | nil => rw [List.foldl_nil, List.append_nil]
  | cons c rest ih =>
      rw [List.mem_cons, not_or] at h
      have hread : read ⟨[], text⟩ c = ⟨[], text ++ [c]⟩ := by
        rw [read, if_neg (Ne.symm h.1)]
        split
        next hc => rw [hc]
        next => rfl
      rw [List.foldl_cons, hread, ih _ h.2, List.append_assoc, List.singleton_append]

theorem left_append (before : List (List Char)) (text t : List Char) :
    left ⟨before, text ++ t⟩ = left ⟨before, text⟩ ++ t := by
  induction before generalizing text with
  | nil => rfl
  | cons outer others ih =>
      have hcons (text : List Char) :
          left ⟨outer :: others, text⟩ = left ⟨others, outer ++ '<' :: text⟩ := rfl
      rw [hcons, hcons, ← ih, List.append_assoc, List.cons_append]

/-- Without closing brackets all that is read is left. -/
theorem left_foldl_read_of_closing_notMem (b : Brackets) {s : List Char} (h : '>' ∉ s) :
    (s.foldl read b).left = b.left ++ s := by
  induction s generalizing b with
  | nil => rw [List.foldl_nil, List.append_nil]
  | cons c rest ih =>
      rw [List.mem_cons, not_or] at h
      have hread : (b.read c).left = b.left ++ [c] := by
        rw [read, if_neg (Ne.symm h.1)]
        split
        next hc => rw [hc, ← left_append]; rfl
        next => exact left_append b.before b.text [c]
      rw [List.foldl_cons, ih _ h.2, hread, List.append_assoc, List.singleton_append]

end Brackets

/-! ## Balanced texts -/

/-- Every bracket has its partner. -/
inductive Balanced : List Char → Prop
  | nil : Balanced []
  | plain {c : Char} {s : List Char} (hc : isAngle c = false) (hs : Balanced s) : Balanced (c :: s)
  | group {s t : List Char} (hs : Balanced s) (ht : Balanced t) : Balanced ('<' :: s ++ '>' :: t)

theorem Balanced.of_plain {s : List Char} (h : ∀ c ∈ s, isAngle c = false) : Balanced s := by
  induction s with
  | nil => exact .nil
  | cons c rest ih =>
      rw [List.forall_mem_cons] at h
      exact .plain h.1 (ih h.2)

namespace Brackets

/-- A balanced text only adds to the text behind the innermost open bracket. -/
theorem foldl_read_balanced {s : List Char} (h : Balanced s) :
    ∃ kept, ∀ b : Brackets, s.foldl read b = ⟨b.before, b.text ++ kept⟩ := by
  induction h with
  | nil => exact ⟨[], fun b => by rw [List.append_nil]; rfl⟩
  | @plain c s hc _ ih =>
      obtain ⟨kept, hkept⟩ := ih
      refine ⟨c :: kept, ?_⟩
      intro b
      rw [List.foldl_cons, read_of_plain b hc, hkept, List.append_assoc, List.singleton_append]
  | @group s t _ _ ihs iht =>
      obtain ⟨inside, hinside⟩ := ihs
      obtain ⟨kept, hkept⟩ := iht
      refine ⟨kept, ?_⟩
      intro b
      rw [List.cons_append, List.foldl_cons, List.foldl_append, hinside, List.foldl_cons, ← hkept]
      rfl

/-- A balanced text in brackets leaves nothing behind. -/
theorem foldl_read_bracketed (b : Brackets) {s : List Char} (h : Balanced s) (t : List Char) :
    ('<' :: s ++ '>' :: t).foldl read b = t.foldl read b := by
  obtain ⟨kept, hkept⟩ := foldl_read_balanced h
  rw [List.cons_append, List.foldl_cons, List.foldl_append, hkept, List.foldl_cons]
  rfl

/-- The pass from left to right leaves out what a pass from the inside takes away. -/
theorem foldl_read_removeInnermost (b : Brackets) (s : List Char) :
    (removeInnermost s).foldl read b = s.foldl read b := by
  fun_induction removeInnermost s generalizing b with
  | case1 => rfl
  | case2 rest left h _ ih =>
      obtain ⟨inside, rfl, hinside⟩ := eq_append_of_afterGroup? h
      rw [ih, ← List.cons_append, foldl_read_bracketed b (.of_plain hinside)]
  | case3 rest h ih => rw [List.foldl_cons, List.foldl_cons, ih]
  | case4 c rest hc ih => rw [List.foldl_cons, List.foldl_cons, ih]

end Brackets

/-- The text that one pass from left to right leaves. -/
def outside (s : List Char) : List Char :=
  (s.foldl Brackets.read ⟨[], []⟩).left

theorem outside_removeInnermost (s : List Char) : outside (removeInnermost s) = outside s := by
  rw [outside, outside, Brackets.foldl_read_removeInnermost]

/-- Where no innermost group is left, the closing brackets stand in front of the opening ones. -/
theorem exists_append_of_removeInnermost_eq_self {s : List Char} (h : removeInnermost s = s) :
    ∃ u v, s = u ++ v ∧ '<' ∉ u ∧ '>' ∉ v := by
  fun_induction removeInnermost s with
  | case1 => exact ⟨[], [], rfl, by simp, by simp⟩
  | case2 rest left hgroup _ ih =>
      have hle := length_removeInnermost_le left
      have hlt := length_of_afterGroup? hgroup
      rw [h, List.length_cons] at hle
      omega
  | case3 rest hgroup ih =>
      obtain ⟨u, v, hrest, hu, hv⟩ := ih (List.cons.inj h).2
      refine ⟨[], '<' :: rest, rfl, by simp, ?_⟩
      -- a closing bracket in `u` would end the group that begins here
      have hclosing : '>' ∉ u := by
        intro hmem
        obtain ⟨a, b, rfl, ha⟩ := List.eq_append_cons_of_mem hmem
        have hinside : ∀ c ∈ a, isAngle c = false :=
          isAngle_eq_false_of_notMem (mt (List.mem_append_left _) hu) ha
        rw [hrest, List.append_assoc, List.cons_append, afterGroup?_append hinside] at hgroup
        contradiction
      simp [hrest, hclosing, hv]
  | case4 c rest hc ih =>
      obtain ⟨u, v, rfl, hu, hv⟩ := ih (List.cons.inj h).2
      exact ⟨c :: u, v, rfl, by simp [hu, Ne.symm hc], hv⟩

theorem outside_eq_self {u v : List Char} (hu : '<' ∉ u) (hv : '>' ∉ v) :
    outside (u ++ v) = u ++ v := by
  rw [outside, List.foldl_append, Brackets.foldl_read_of_opening_notMem [] hu,
    Brackets.left_foldl_read_of_closing_notMem _ hv]
  rfl

/-- Taking groups away from the inside out and matching brackets from left to right leave the same
text. -/
theorem removeTypeParameters_eq_outside (s : List Char) : removeTypeParameters s = outside s := by
  fun_induction removeTypeParameters s with
  | case1 s h =>
      obtain ⟨u, v, rfl, hu, hv⟩ := exists_append_of_removeInnermost_eq_self h
      exact (outside_eq_self hu hv).symm
  | case2 s h _ ih => rw [ih, outside_removeInnermost]

/-- There are no type parameters without an opening bracket. -/
theorem removeTypeParameters_eq_self {s : List Char} (h : '<' ∉ s) :
    removeTypeParameters s = s := by
  have houtside := outside_eq_self h List.not_mem_nil
  rwa [List.append_nil, ← removeTypeParameters_eq_outside] at houtside

/-! ## Two texts in a row -/

theorem exists_append_of_removeTypeParameters (s : List Char) :
    ∃ u v, removeTypeParameters s = u ++ v ∧ '<' ∉ u ∧ '>' ∉ v := by
  fun_induction removeTypeParameters s with
  | case1 s h => exact exists_append_of_removeInnermost_eq_self h
  | case2 s h _ ih => exact ih

theorem removeTypeParameters_removeTypeParameters (s : List Char) :
    removeTypeParameters (removeTypeParameters s) = removeTypeParameters s := by
  obtain ⟨u, v, hs, hu, hv⟩ := exists_append_of_removeTypeParameters s
  rw [hs, removeTypeParameters_eq_outside, outside_eq_self hu hv]

theorem foldl_read_removeTypeParameters (b : Brackets) (s : List Char) :
    (removeTypeParameters s).foldl Brackets.read b = s.foldl Brackets.read b := by
  fun_induction removeTypeParameters s with
  | case1 s h => rfl
  | case2 s h _ ih => rw [ih, Brackets.foldl_read_removeInnermost]

/-- Type parameters may be removed from the parts of a text first. -/
theorem removeTypeParameters_append (s t : List Char) :
    removeTypeParameters (removeTypeParameters s ++ removeTypeParameters t) =
      removeTypeParameters (s ++ t) := by
  rw [removeTypeParameters_eq_outside (_ ++ _), removeTypeParameters_eq_outside (_ ++ _), outside,
    outside, List.foldl_append, List.foldl_append, foldl_read_removeTypeParameters,
    foldl_read_removeTypeParameters]

/-- The place between the two texts lies in type parameters: an opening bracket in front of it
has its partner behind it. -/
def InTypeParameters (s t : List Char) : Prop :=
  '<' ∈ removeTypeParameters s ∧ '>' ∈ removeTypeParameters t

instance (s t : List Char) : Decidable (InTypeParameters s t) :=
  inferInstanceAs (Decidable (_ ∧ _))

theorem removeTypeParameters_append_of_not_in {s t : List Char} (h : ¬ InTypeParameters s t) :
    removeTypeParameters (s ++ t) = removeTypeParameters s ++ removeTypeParameters t := by
  obtain ⟨u, v, hs, hu, hv⟩ := exists_append_of_removeTypeParameters s
  obtain ⟨u', v', ht, hu', hv'⟩ := exists_append_of_removeTypeParameters t
  rw [← removeTypeParameters_append, removeTypeParameters_eq_outside]
  rw [InTypeParameters, not_and_or] at h
  rcases h with h | h
  · rw [ht, ← List.append_assoc]
    exact outside_eq_self (by simp [h, hu']) hv'
  · rw [hs, List.append_assoc]
    exact outside_eq_self hu (by simp [h, hv])

theorem exists_append_cons_of_mem_last {s : List Char} {c : Char} (h : c ∈ s) :
    ∃ u v, s = u ++ c :: v ∧ c ∉ v := by
  obtain ⟨v, u, hs, hv⟩ := List.eq_append_cons_of_mem (List.mem_reverse.mpr h)
  refine ⟨u.reverse, v.reverse, ?_, by simpa using hv⟩
  rw [← List.reverse_reverse s, hs, List.reverse_append, List.reverse_cons, List.append_assoc,
    List.singleton_append]

/-- Behind an opening bracket that is left no closing one is left. -/
theorem closing_notMem_of_removeTypeParameters_eq {s u v : List Char}
    (h : removeTypeParameters s = u ++ '<' :: v) : '>' ∉ v := by
  obtain ⟨x, y, hs, hx, hy⟩ := exists_append_of_removeTypeParameters s
  rcases List.append_eq_append_iff.mp (hs.symm.trans h) with ⟨w, -, rfl⟩ | ⟨w, rfl, hw⟩
  · exact fun hmem => hy (by simp [hmem])
  · cases w with
    | nil =>
        rw [List.nil_append] at hw
        exact fun hmem => hy (by simp [← hw, hmem])
    | cons c w => simp [← (List.cons.inj hw).1] at hx

/-- What is put into type parameters is removed with them. -/
theorem removeTypeParameters_insert_of_in {s t inserted : List Char} (h : InTypeParameters s t)
    (hplain : ∀ c ∈ inserted, isAngle c = false) :
    removeTypeParameters (s ++ (inserted ++ t)) = removeTypeParameters (s ++ t) := by
  obtain ⟨before, inner, hs, hinner⟩ := exists_append_cons_of_mem_last h.1
  obtain ⟨inner', behind, ht, hinner'⟩ := List.eq_append_cons_of_mem h.2
  have hopening : '<' ∉ inner' := by
    intro hmem
    obtain ⟨x, y, rfl⟩ := List.append_of_mem hmem
    rw [List.append_assoc, List.cons_append] at ht
    exact closing_notMem_of_removeTypeParameters_eq ht (by simp)
  have hleft := isAngle_eq_false_of_notMem hinner (closing_notMem_of_removeTypeParameters_eq hs)
  have hright := isAngle_eq_false_of_notMem hopening hinner'
  -- the last opening bracket in front and the first closing one behind are partners
  have hgroup (between : List Char) (hbetween : ∀ c ∈ between, isAngle c = false)
      (b : Brackets) : (s ++ (between ++ t)).foldl Brackets.read b =
        (before ++ behind).foldl Brackets.read b := by
    have hbalanced : Balanced (inner ++ (between ++ inner')) := by
      refine .of_plain ?_
      simp only [List.forall_mem_append]
      exact ⟨hleft, hbetween, hright⟩
    calc (s ++ (between ++ t)).foldl Brackets.read b
        = (before ++ '<' :: inner ++ (between ++ (inner' ++ '>' :: behind))).foldl
            Brackets.read b := by
          rw [List.foldl_append, List.foldl_append, ← foldl_read_removeTypeParameters b s,
            ← foldl_read_removeTypeParameters _ t, hs, ht, ← List.foldl_append,
            ← List.foldl_append]
      _ = (before ++ ('<' :: (inner ++ (between ++ inner')) ++ '>' :: behind)).foldl
            Brackets.read b := by simp
      _ = (before ++ behind).foldl Brackets.read b := by
          rw [List.foldl_append, Brackets.foldl_read_bracketed _ hbalanced, List.foldl_append]
  have hinserted := hgroup inserted hplain ⟨[], []⟩
  have hempty := hgroup [] (by simp) ⟨[], []⟩
  rw [removeTypeParameters_eq_outside, removeTypeParameters_eq_outside, outside, outside,
    hinserted, ← hempty, List.nil_append]

end MethodSig.Signature
