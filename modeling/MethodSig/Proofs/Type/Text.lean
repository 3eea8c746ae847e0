import Mathlib.Data.List.Infix
import MethodSig.Proofs.Text.Blank
import MethodSig.Type.Descriptor
import MethodSig.Type.Text

/-!
# Texts that are normal already

A text without blanks that does not end in three dots is its own normal form, and array dimensions
that are written after a name without brackets are taken off again.
-/

namespace MethodSig.TypeText

/-- No character of the text is a bracket. -/
def NoBracket (s : List Char) : Prop :=
  ∀ c ∈ s, isBracket c = false

instance (s : List Char) : Decidable (NoBracket s) :=
  List.decidableBAll (isBracket · = false) s

/-- The text names a type without dimensions: nothing in it is blank or a bracket, and it does
not end in three dots. -/
structure IsBase (s : List Char) : Prop where
  noBlank : ∀ c ∈ s, Text.isBlank c = false
  noBracket : ∀ c ∈ s, isBracket c = false
  noDots : ¬ "...".toList <:+ s

instance (s : List Char) : Decidable (IsBase s) :=
  have : Decidable (∀ c ∈ s, Text.isBlank c = false) :=
    List.decidableBAll (Text.isBlank · = false) s
  decidable_of_iff ((∀ c ∈ s, Text.isBlank c = false) ∧ NoBracket s ∧ ¬ "...".toList <:+ s)
    ⟨fun h => ⟨h.1, h.2.1, h.2.2⟩, fun h => ⟨h.noBlank, h.noBracket, h.noDots⟩⟩

/-- Only three dots at the end are replaced. -/
theorem normalize_of_not_suffix {s : List Char} (h : ¬ "...".toList <:+ Text.removeBlanks s) :
    normalize s = Text.removeBlanks s := by
  unfold normalize
  split
  next before heq =>
    rw [List.reverse_eq_iff] at heq
    refine absurd ?_ h
    rw [heq]
    exact ⟨before.reverse, by simp⟩
  next => exact List.reverse_reverse _

theorem normalize_eq_self {s : List Char} (hblank : ∀ c ∈ s, Text.isBlank c = false)
    (hdots : ¬ "...".toList <:+ s) : normalize s = s := by
  have hkeep : Text.removeBlanks s = s := Text.removeBlanks_eq_self hblank
  rw [normalize_of_not_suffix (by rwa [hkeep]), hkeep]

/-- A text that ends in a pair of brackets does not end in three dots. -/
theorem not_suffix_append_pair (s : List Char) : ¬ "...".toList <:+ s ++ ['[', ']'] := by
  rintro ⟨before, heq⟩
  have hlast := congrArg List.getLast? heq
  simp at hlast

/-! ## Dimensions -/

theorem dimensionText_succ (n : ℕ) :
    (Descriptor.dimensionText (n + 1)).toList =
      '[' :: ']' :: (Descriptor.dimensionText n).toList := by
  simp [Descriptor.dimensionText]

theorem dimensionText_succ_eq_append (n : ℕ) :
    (Descriptor.dimensionText (n + 1)).toList =
      (Descriptor.dimensionText n).toList ++ ['[', ']'] := by
  induction n with
  | zero => decide
  | succ n ih =>
      rw [dimensionText_succ, ih, ← List.cons_append, ← List.cons_append, ← dimensionText_succ, ih]

theorem dimensionText_append_dimensionText (m n : ℕ) :
    Descriptor.dimensionText m ++ Descriptor.dimensionText n = Descriptor.dimensionText (m + n) := by
  induction m with
  | zero => rw [Nat.zero_add, Descriptor.dimensionText, String.empty_append]
  | succ m ih =>
      rw [Nat.succ_add, Descriptor.dimensionText, Descriptor.dimensionText, String.append_assoc, ih]

theorem toList_name_arrayOver (e : Descriptor) (n : ℕ) :
    (Descriptor.arrayOver e n).name.toList =
      e.name.toList ++ (Descriptor.dimensionText n).toList := by
  rw [← String.toList_append]
  rfl

theorem mem_dimensionText {n : ℕ} {c : Char} (h : c ∈ (Descriptor.dimensionText n).toList) :
    c ∈ "[]".toList := by
  induction n with
  | zero => simp [Descriptor.dimensionText] at h
  | succ n ih =>
      rw [dimensionText_succ_eq_append, List.mem_append] at h
      exact h.elim ih id

theorem bracketPairs?_dimensionText (n : ℕ) :
    bracketPairs? (Descriptor.dimensionText n).toList = some n := by
  induction n with
  | zero => rfl
  | succ n ih =>
      rw [dimensionText_succ, bracketPairs?, ih]
      rfl

theorem bracketPairs?_eq_some_iff {s : List Char} {n : ℕ} :
    bracketPairs? s = some n ↔ s = (Descriptor.dimensionText n).toList := by
  refine ⟨?_, fun h => h ▸ bracketPairs?_dimensionText n⟩
  intro h
  fun_induction bracketPairs? s generalizing n with
  | case1 =>
      rw [Option.some.injEq] at h
      subst h
      rfl
  | case2 rest ih =>
      obtain ⟨m, hm, rfl⟩ := Option.map_eq_some_iff.mp h
      rw [dimensionText_succ, ← ih hm]
  | case3 => contradiction

theorem isBlank_of_mem_dimensionText {n : ℕ} {c : Char}
    (h : c ∈ (Descriptor.dimensionText n).toList) : Text.isBlank c = false := by
  have hbrackets : "[]".toList.all (!Text.isBlank ·) = true := by decide
  simpa using List.all_eq_true.mp hbrackets c (mem_dimensionText h)

theorem isBracket_of_mem_dimensionText {n : ℕ} {c : Char}
    (h : c ∈ (Descriptor.dimensionText n).toList) : isBracket c = true := by
  have hbrackets : "[]".toList.all isBracket = true := by decide
  exact List.all_eq_true.mp hbrackets c (mem_dimensionText h)

/-- The dimensions of an array text are the pairs of brackets behind its base. -/
theorem arraySuffix?_eq_some_iff {s base : List Char} {n : ℕ} :
    arraySuffix? s = some (base, n) ↔
      base ≠ [] ∧ NoBracket base ∧ 0 < n ∧ s = base ++ (Descriptor.dimensionText n).toList := by
  constructor
  · intro h
    unfold arraySuffix? at h
    split at h
    next c rest m hbase hpairs =>
      rw [Option.some.injEq, Prod.mk.injEq] at h
      obtain ⟨rfl, rfl⟩ := h
      refine ⟨by simp, ?_, Nat.succ_pos m, ?_⟩
      · intro d hd
        rw [← hbase] at hd
        simpa using List.mem_takeWhile_imp hd
      · rw [← bracketPairs?_eq_some_iff.mp hpairs, ← hbase, List.takeWhile_append_dropWhile]
    next => contradiction
  · rintro ⟨hne, hbase, hn, rfl⟩
    have hrun : ∀ c ∈ base, (!isBracket c) = true := by
      intro c hc
      rw [hbase c hc]
      rfl
    have hdimensions : ∀ c ∈ (Descriptor.dimensionText n).toList.head?, (!isBracket c) = false := by
      intro c hc
      rw [isBracket_of_mem_dimensionText (List.mem_of_mem_head? hc)]
      rfl
    obtain ⟨c, rest, rfl⟩ := List.exists_cons_of_ne_nil hne
    obtain ⟨m, rfl⟩ := Nat.exists_eq_succ_of_ne_zero hn.ne'
    rw [arraySuffix?, Text.takeWhile_append_of_head hrun hdimensions,
      Text.dropWhile_append_of_head hrun hdimensions, bracketPairs?_dimensionText]

section Base

variable {s : List Char}

theorem IsBase.normalize_eq_self (hs : IsBase s) : normalize s = s :=
  TypeText.normalize_eq_self hs.noBlank hs.noDots

/-- A name with dimensions is normal as well, for it ends in a bracket. -/
theorem IsBase.normalize_append_dimensionText (hs : IsBase s) (n : ℕ) :
    normalize (s ++ (Descriptor.dimensionText n).toList) =
      s ++ (Descriptor.dimensionText n).toList := by
  cases n with
  | zero =>
      have hempty : (Descriptor.dimensionText 0).toList = [] := rfl
      rw [hempty, List.append_nil, hs.normalize_eq_self]
  | succ n =>
      apply TypeText.normalize_eq_self
      · intro c hc
        rcases List.mem_append.mp hc with hc | hc
        · exact hs.noBlank c hc
        · exact isBlank_of_mem_dimensionText hc
      · rw [dimensionText_succ_eq_append, ← List.append_assoc]
        exact not_suffix_append_pair _

theorem IsBase.arraySuffix?_append_dimensionText (hs : IsBase s) (hne : s ≠ []) (n : ℕ) :
    arraySuffix? (s ++ (Descriptor.dimensionText (n + 1)).toList) = some (s, n + 1) :=
  arraySuffix?_eq_some_iff.mpr ⟨hne, hs.noBracket, Nat.succ_pos n, rfl⟩

end Base

end MethodSig.TypeText
