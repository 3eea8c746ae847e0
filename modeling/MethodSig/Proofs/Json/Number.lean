import Mathlib.Data.List.TakeWhile
import MethodSig.Json.Reader
import MethodSig.Json.Writer

/-!
# Whole numbers that were written are read back

A whole number that has not too many digits is read back, if what stands behind it does not go on
like a number.
-/

namespace MethodSig.Json

/-- A number of no more digits than may be read. -/
def HasFewDigits (n : ℕ) : Prop :=
  (Nat.toDigits 10 n).length ≤ maxDigits

instance (n : ℕ) : Decidable (HasFewDigits n) :=
  inferInstanceAs (Decidable ((Nat.toDigits 10 n).length ≤ maxDigits))

/-- The text does not go on like a number in front of it. -/
def EndsNumber (s : List Char) : Prop :=
  ∀ c ∈ s.head?, c.isDigit = false ∧ c ≠ '.' ∧ c ≠ 'e' ∧ c ≠ 'E'

theorem endsNumber_cons {c : Char} (s : List Char)
    (hc : c.isDigit = false ∧ c ≠ '.' ∧ c ≠ 'e' ∧ c ≠ 'E') : EndsNumber (c :: s) := by
  intro first hfirst
  rw [List.head?_cons, Option.mem_some_iff] at hfirst
  exact hfirst ▸ hc

/-! ## Digits -/

theorem isDigit_of_mem_toDigits {n : ℕ} {c : Char} (h : c ∈ Nat.toDigits 10 n) :
    c.isDigit = true :=
  Nat.isDigit_of_mem_toDigits (by decide) (by decide) h

theorem exists_isDigit_toDigits (n : ℕ) :
    ∃ c digits, Nat.toDigits 10 n = c :: digits ∧ c.isDigit = true := by
  obtain ⟨c, digits, heq⟩ := List.exists_cons_of_ne_nil (Nat.toDigits_ne_nil (n := n))
  exact ⟨c, digits, heq, isDigit_of_mem_toDigits (heq ▸ List.mem_cons_self)⟩

/-- The digits of a number do not begin with a zero, unless the number is zero. -/
theorem exists_toDigits_eq_cons {n : ℕ} (hn : 0 < n) :
    ∃ c digits, Nat.toDigits 10 n = c :: digits ∧ c ≠ '0' := by
  induction n using Nat.strong_induction_on with
  | h n ih =>
      by_cases hlt : n < 10
      · have hall : ∀ n < 10, 0 < n → Nat.digitChar n ≠ '0' := by decide
        exact ⟨_, [], Nat.toDigits_of_lt_base hlt, hall n hlt hn⟩
      · obtain ⟨c, digits, hdigits, hc⟩ := ih (n / 10) (by omega) (by omega)
        refine ⟨c, digits ++ [Nat.digitChar (n % 10)], ?_, hc⟩
        rw [Nat.toDigits_of_base_le (by decide) (Nat.le_of_not_lt hlt), hdigits, List.cons_append]

theorem decimal_eq_ofDigitChars (digits : List Char) :
    decimal digits = Nat.ofDigitChars 10 digits 0 :=
  Nat.ofDigitChars_eq_foldl.symm

theorem decimal_toDigits (n : ℕ) : decimal (Nat.toDigits 10 n) = n := by
  rw [decimal_eq_ofDigitChars, Nat.ofDigitChars_ten_toDigits]

theorem decimal_lt {digits : List Char} (h : ∀ c ∈ digits, c.isDigit = true) :
    decimal digits < Nat.pow 10 digits.length := by
  induction digits with
  | nil => decide
  | cons c digits ih =>
      obtain ⟨hc, hdigits⟩ := List.forall_mem_cons.mp h
      have hdigit : c.toNat - '0'.toNat < 10 := by
        simp only [Char.isDigit, Bool.and_eq_true, decide_eq_true_eq] at hc
        have hle : c.toNat ≤ '9'.toNat := UInt32.le_iff_toNat_le.mp hc.2
        have hzero : '0'.toNat = 48 := rfl
        have hnine : '9'.toNat = 57 := rfl
        omega
      have hrest : decimal digits < 10 ^ digits.length := ih hdigits
      rw [decimal_eq_ofDigitChars] at hrest ⊢
      rw [Nat.ofDigitChars_cons, Nat.ofDigitChars_eq_ofDigitChars_zero, List.length_cons]
      calc
        10 ^ digits.length * (10 * 0 + (c.toNat - '0'.toNat)) + Nat.ofDigitChars 10 digits 0
          < 10 ^ digits.length * (c.toNat - '0'.toNat) + 10 ^ digits.length := by
            simpa using hrest
        _ = 10 ^ digits.length * (c.toNat - '0'.toNat + 1) := (Nat.mul_succ _ _).symm
        _ ≤ 10 ^ digits.length * 10 := Nat.mul_le_mul_left _ hdigit

theorem hasFewDigits_decimal {digits : List Char} (h : ∀ c ∈ digits, c.isDigit = true)
    (hlength : digits.length ≤ maxDigits) : HasFewDigits (decimal digits) := by
  rw [HasFewDigits, Nat.length_toDigits_le_iff (by decide) (by decide)]
  have hlt : decimal digits < 10 ^ digits.length := decimal_lt h
  exact Nat.lt_of_lt_of_le hlt (Nat.pow_le_pow_right (by decide) hlength)

/-! ## Numbers -/

theorem wholeDigits_toDigits (n : ℕ) {left : List Char} (hleft : EndsNumber left) :
    wholeDigits (Nat.toDigits 10 n ++ left) = (Nat.toDigits 10 n, left) := by
  have htake : (Nat.toDigits 10 n ++ left).takeWhile Char.isDigit = Nat.toDigits 10 n := by
    rw [List.takeWhile_append_of_pos fun c hc => isDigit_of_mem_toDigits hc]
    cases left with
    | nil => simp
    | cons c left =>
        have hc : ¬ c.isDigit = true := by simp [(hleft c rfl).1]
        rw [List.takeWhile_cons_of_neg hc, List.append_nil]
  have hdrop : (Nat.toDigits 10 n ++ left).dropWhile Char.isDigit = left := by
    rw [List.dropWhile_append_of_pos fun c hc => isDigit_of_mem_toDigits hc]
    cases left with
    | nil => rfl
    | cons c left =>
        have hc : ¬ c.isDigit = true := by simp [(hleft c rfl).1]
        rw [List.dropWhile_cons_of_neg hc]
  rcases Nat.eq_zero_or_pos n with rfl | hn
  · rfl
  · obtain ⟨c, digits, hdigits, hc⟩ := exists_toDigits_eq_cons hn
    rw [wholeDigits, htake, hdrop]
    intro rest heq
    rw [hdigits, List.cons_append] at heq
    exact hc (List.cons.inj heq).1

theorem fractionDigits_of_endsNumber {s : List Char} (hs : EndsNumber s) :
    fractionDigits s = ([], s) := by
  rw [fractionDigits]
  rintro rest rfl
  exact (hs '.' rfl).2.1 rfl

theorem exponentPart_of_endsNumber {s : List Char} (hs : EndsNumber s) :
    exponentPart s = (none, s) := by
  cases s with
  | nil => rfl
  | cons c s =>
      obtain ⟨-, -, hlower, hupper⟩ := hs c rfl
      simp [exponentPart, hlower, hupper]

theorem toList_toString_int (n : ℤ) :
    (toString n).toList = (if n < 0 then ['-'] else []) ++ Nat.toDigits 10 n.natAbs := by
  cases n with
  | ofNat n =>
      have htext : toString (Int.ofNat n) = n.repr := rfl
      have hsign : ¬ Int.ofNat n < 0 := Int.not_lt.mpr (Int.natCast_nonneg n)
      rw [htext, if_neg hsign, Nat.repr_eq_ofList_toDigits, String.toList_ofList]
      rfl
  | negSucc n =>
      have htext : toString (Int.negSucc n) = "-" ++ (n + 1).repr := rfl
      have hdigits : (n + 1).repr.toList = Nat.toDigits 10 (n + 1) := by
        rw [Nat.repr_eq_ofList_toDigits, String.toList_ofList]
      rw [htext, if_pos (Int.negSucc_lt_zero n), String.toList_append, hdigits,
        Int.natAbs_negSucc]
      rfl

/-- The digits of a number are read with the sign in front of them. -/
theorem number_of_toDigits {n : ℕ} (hn : HasFewDigits n) {s left : List Char}
    (hs : (if s.head? = some '-' then s.drop 1 else s) = Nat.toDigits 10 n ++ left)
    (hleft : EndsNumber left) :
    number s = .ok (.int (if s.head? = some '-' then -Int.ofNat n else Int.ofNat n), left) := by
  have hdigits : (Nat.toDigits 10 n).isEmpty = false :=
    List.isEmpty_eq_false_iff.mpr Nat.toDigits_ne_nil
  have hshort : ¬ (Nat.toDigits 10 n).length > maxDigits := Nat.not_lt.mpr hn
  simp only [number, hs, wholeDigits_toDigits n hleft, fractionDigits_of_endsNumber hleft,
    exponentPart_of_endsNumber hleft, hdigits, decimal_toDigits, if_neg hshort]
  rfl

/-- A whole number of not too many digits is read back. -/
theorem number_toString {n : ℤ} (hn : HasFewDigits n.natAbs) {left : List Char}
    (hleft : EndsNumber left) : number ((toString n).toList ++ left) = .ok (.int n, left) := by
  rw [toList_toString_int, List.append_assoc]
  by_cases hneg : n < 0
  · have hvalue : -Int.ofNat n.natAbs = n := by
      rw [Int.ofNat_eq_natCast]
      omega
    rw [if_pos hneg, List.singleton_append, number_of_toDigits hn (if_pos rfl) hleft,
      List.head?_cons, if_pos rfl, hvalue]
  · have hvalue : Int.ofNat n.natAbs = n := by
      rw [Int.ofNat_eq_natCast]
      omega
    have hhead : ¬ (Nat.toDigits 10 n.natAbs ++ left).head? = some '-' := by
      obtain ⟨c, digits, heq, hdigit⟩ := exists_isDigit_toDigits n.natAbs
      rw [heq, List.cons_append, List.head?_cons, Option.some.injEq]
      rintro rfl
      contradiction
    rw [if_neg hneg, List.nil_append, number_of_toDigits hn (if_neg hhead) hleft, if_neg hhead,
      hvalue]

/-- A whole number is written as digits, perhaps with a sign in front of them. -/
theorem toString_int_cases (n : ℤ) :
    ∃ c digits, c.isDigit = true ∧
      ((toString n).toList = c :: digits ∨ (toString n).toList = '-' :: c :: digits) := by
  obtain ⟨c, digits, heq, hdigit⟩ := exists_isDigit_toDigits n.natAbs
  refine ⟨c, digits, hdigit, ?_⟩
  rw [toList_toString_int, heq]
  by_cases hneg : n < 0
  · exact Or.inr (by rw [if_pos hneg]; rfl)
  · exact Or.inl (by rw [if_neg hneg]; rfl)

/-- A number is taken for none of the words. -/
theorem scalar_of_isDigit {c : Char} (hc : c.isDigit = true) (s : List Char) :
    scalar (c :: s) = number (c :: s) ∧ scalar ('-' :: c :: s) = number ('-' :: c :: s) := by
  have hne : ∀ letter : Char, letter.isDigit = false → (letter == c) = false := by
    intro letter hletter
    rw [beq_eq_false_iff_ne]
    rintro rfl
    exact absurd hc (by simp [hletter])
  have hn := hne 'n' (by decide)
  have ht := hne 't' (by decide)
  have hf := hne 'f' (by decide)
  have hN := hne 'N' (by decide)
  have hI := hne 'I' (by decide)
  have hsign := hne '-' (by decide)
  constructor
  · simp [scalar, literals, List.isPrefixOf, hn, ht, hf, hN, hI, hsign]
  · simp [scalar, literals, List.isPrefixOf, hI]

theorem scalar_toString {n : ℤ} (hn : HasFewDigits n.natAbs) {left : List Char}
    (hleft : EndsNumber left) : scalar ((toString n).toList ++ left) = .ok (.int n, left) := by
  rw [← number_toString hn hleft]
  obtain ⟨c, digits, hc, heq | heq⟩ := toString_int_cases n
  · rw [heq]
    exact (scalar_of_isDigit hc (digits ++ left)).1
  · rw [heq]
    exact (scalar_of_isDigit hc (digits ++ left)).2

end MethodSig.Json
