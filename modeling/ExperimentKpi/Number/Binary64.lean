/-
# Binary floating-point numbers of 64 bits

The finite numbers of the binary64 format as exact values: `mantissa · 2^exponent` in units of
`2^-1074`, in the one form in which the mantissa fills its 53 bits or the exponent is zero. All
arithmetic is rounding of exact quotients to the nearest number, a half to the even mantissa, so
that no operation of the machine is involved.

Key definitions: `Binary64`, `Binary64.ofRatio?`, `Binary64.ofInt`, `Binary64.mul?`,
`Binary64.div?`, `Binary64.same`.
-/
namespace ExperimentKpi

/-- The least mantissa that fills 53 bits. -/
def Binary64.leastFull : Nat := 0x10000000000000

/-- How many units of `2^-1074` make one. -/
def Binary64.unitsPerOne : Nat := Nat.pow 2 1074

/-- A finite number of the binary64 format, of value `mantissa · 2^(exponent - 1074)`. -/
structure Binary64 where
  negative : Bool
  mantissa : Nat
  exponent : Nat
  canonical :
    mantissa < 2 * Binary64.leastFull ∧ (exponent = 0 ∨ Binary64.leastFull ≤ mantissa) ∧
      exponent ≤ 2045
deriving DecidableEq

namespace Binary64

/-- `num / den` rounded to the nearest integer, a half to the even one. -/
def roundDiv (num den : Nat) : Nat :=
  let q := num / den
  let r := num % den
  if 2 * r < den then q
  else if 2 * r = den then q + q % 2
  else q + 1

/-- The number with the given fields, if they are in the one form. -/
def ofFields? (negative : Bool) (mantissa exponent : Nat) : Option Binary64 :=
  if h : mantissa < 2 * leastFull ∧ (exponent = 0 ∨ leastFull ≤ mantissa) ∧ exponent ≤ 2045 then
    some ⟨negative, mantissa, exponent, h⟩
  else none

/-- The number nearest to `num / den`; none where that exceeds every finite number. -/
def ofRatio? (negative : Bool) (num den : Nat) : Option Binary64 :=
  let scaled := num * unitsPerOne
  let exponent := Nat.log2 (scaled / den) - 52
  let mantissa := roundDiv scaled (den * Nat.pow 2 exponent)
  if mantissa = 2 * leastFull then ofFields? negative leastFull (exponent + 1)
  else ofFields? negative mantissa exponent

/-- Zero with a sign. -/
def zero (negative : Bool) : Binary64 :=
  ⟨negative, 0, 0, by decide⟩

/-- The largest finite number with a sign. -/
def largest (negative : Bool) : Binary64 :=
  ⟨negative, 2 * leastFull - 1, 2045, by decide⟩

/-- The number nearest to a natural number that is small enough to have one, as every number of 64
bits is. -/
def ofNat (n : Nat) : Binary64 :=
  (ofRatio? false n 1).getD (largest false)

/-- The number nearest to an integer. -/
def ofInt (z : Int) : Binary64 :=
  (ofRatio? (decide (z < 0)) z.natAbs 1).getD (largest (decide (z < 0)))

/-- The magnitude in units of `2^-1074`. -/
def magnitude (x : Binary64) : Nat :=
  x.mantissa * Nat.pow 2 x.exponent

/-- The rounded product; none on overflow. -/
def mul? (x y : Binary64) : Option Binary64 :=
  ofRatio? (x.negative != y.negative) (x.magnitude * y.magnitude) (unitsPerOne * unitsPerOne)

/-- The rounded quotient by a number other than zero; none on overflow. -/
def div? (x y : Binary64) : Option Binary64 :=
  ofRatio? (x.negative != y.negative) x.magnitude y.magnitude

/-- Whether the number is a zero of either sign. -/
def isZero (x : Binary64) : Bool :=
  x.mantissa == 0

/-- Numeric equality: the two zeros are equal. -/
def same (x y : Binary64) : Bool :=
  x == y || (x.isZero && y.isZero)

end Binary64

end ExperimentKpi
