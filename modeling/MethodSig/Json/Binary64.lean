/-!
# Numbers in double precision

A decimal numeral with a fraction or an exponent stands for the double precision number nearest
to it. Of two that are equally near, the one with the even significand is taken.
-/

namespace MethodSig

/-- A number in double precision. -/
inductive Binary64 where
  /-- The number significand · 2 ^ exponent, negated if asked for. -/
  | finite (negative : Bool) (significand : Nat) (exponent : Int)
  | infinite (negative : Bool)
  | nan
deriving DecidableEq, Repr, Inhabited

namespace Binary64

/-- The quotient of two numbers, rounded to the nearest whole number, ties to even. -/
def roundedQuotient (num den : Nat) : Nat :=
  let q := num / den
  let twice := 2 * (num % den)
  if twice > den ∨ (twice = den ∧ q % 2 = 1) then q + 1 else q

/-- The quotient of two numbers at the scale of a power of two. -/
def quotientAt (num den : Nat) (exponent : Int) : Nat :=
  if exponent < 0 then roundedQuotient (num * Nat.pow 2 exponent.natAbs) den
  else roundedQuotient num (den * Nat.pow 2 exponent.natAbs)

def ofFraction (negative : Bool) (num den : Nat) : Binary64 :=
  let estimate : Int := Int.ofNat num.log2 - Int.ofNat den.log2 - 53
  let scale : Int := if Nat.pow 2 53 ≤ quotientAt num den estimate then estimate + 1 else estimate
  let exponent := max scale (-1074)
  let significand := quotientAt num den exponent
  if exponent > 971 ∨ (exponent = 971 ∧ significand ≥ Nat.pow 2 53) then .infinite negative
  else .finite negative significand exponent

/-- The number nearest to digits · 10 ^ exponent. Numerals far beyond the largest or below the
least number are settled by their size alone. -/
def ofDecimal (negative : Bool) (digits : Nat) (exponent : Int) : Binary64 :=
  let size := Int.ofNat (Nat.toDigits 10 digits).length + exponent
  if digits = 0 ∨ size < -400 then .finite negative 0 0
  else if size > 400 then .infinite negative
  else if exponent < 0 then ofFraction negative digits (Nat.pow 10 exponent.natAbs)
  else ofFraction negative (digits * Nat.pow 10 exponent.natAbs) 1

/-- The whole number that a finite number is, if it has no fractional part. -/
def toInt? : Binary64 → Option Int
  | .finite negative significand exponent =>
    let magnitude :=
      if exponent ≥ 0 then some (significand * Nat.pow 2 exponent.natAbs)
      else if significand % Nat.pow 2 exponent.natAbs = 0 then
        some (significand / Nat.pow 2 exponent.natAbs)
      else none
    magnitude.map fun n => if negative then -Int.ofNat n else Int.ofNat n
  | _ => none

/-- Whether a number is neither an infinity nor undefined. -/
def isFinite : Binary64 → Bool
  | .finite .. => true
  | _ => false

end Binary64

end MethodSig
