/-
# The shortest decimal of a binary number

A binary64 number owns an interval of reals that round to it, the two ends included when its
mantissa is even. Its shortest decimal is the one with the fewest digits in that interval; of two
such the nearer to the number, and of two equally near the one with an even last digit. On each
decimal grid only the two neighbours of the number need a test.

Key definitions: `Binary64.Interval`, `Binary64.onGrid?`, `Binary64.shortest`, `Decimal`.
-/
import ExperimentKpi.Number.Binary64

namespace ExperimentKpi

/-- The number `digits · 10^exponent`. -/
structure Decimal where
  digits : Nat
  exponent : Int
deriving DecidableEq, Repr

namespace Decimal

/-- How many decimal digits a number has; one for zero. -/
def digitCount (n : Nat) : Nat :=
  (Nat.toDigits 10 n).length

/-- Zeros at the end of the digits move into the exponent, at most `fuel` of them. -/
def stripZeros : Nat → Decimal → Decimal
  | 0, d => d
  | fuel + 1, d =>
    if d.digits ≠ 0 ∧ d.digits % 10 = 0 then stripZeros fuel ⟨d.digits / 10, d.exponent + 1⟩ else d

/-- The same number with no zero at the end of its digits. -/
def normal (d : Decimal) : Decimal :=
  stripZeros (digitCount d.digits) d

end Decimal

namespace Binary64

/-- The reals that round to a number, in quarters of its last place: `centre - below` to
`centre + above`, where one quarter is `num / den`. -/
structure Interval where
  centre : Nat
  below : Nat
  above : Nat
  num : Nat
  den : Nat
  closed : Bool

/-- The interval of a magnitude. The gap below a power of two is half of the gap above it. -/
def interval (x : Binary64) : Interval where
  centre := 4 * x.mantissa
  below := if x.mantissa = leastFull ∧ x.exponent ≠ 0 then 1 else 2
  above := 2
  num := Nat.pow 2 x.exponent
  den := 4 * unitsPerOne
  closed := x.mantissa % 2 == 0

/-- Whether `n · gnum / gden` lies in the interval. -/
def Interval.holds (i : Interval) (n gnum gden : Nat) : Bool :=
  let value := n * gnum * i.den
  let low := (i.centre - i.below) * i.num * gden
  let high := (i.centre + i.above) * i.num * gden
  if i.closed then low ≤ value && value ≤ high else low < value && value < high

/-- The point of the decimal grid of spacing `10^place` that lies in the number's interval: of the
two neighbours of the number the nearer one, an even one where both are equally near. -/
def onGrid? (x : Binary64) (place : Int) : Option Nat :=
  let i := x.interval
  let gnum := Nat.pow 10 place.toNat
  let gden := Nat.pow 10 (-place).toNat
  let value := i.centre * i.num * gden
  let unit := gnum * i.den
  let down := value / unit
  let rest := value % unit
  let up := down + 1
  match i.holds down gnum gden, i.holds up gnum gden with
  | true, true =>
    if 2 * rest < unit then some down
    else if 2 * rest = unit then some (down + down % 2)
    else some up
  | true, false => some down
  | false, true => some up
  | false, false => none

/-- The exponent of the first power of ten above the magnitude of a number other than zero. -/
def decimalWidth (x : Binary64) : Int :=
  (Decimal.digitCount (x.magnitude * Nat.pow 10 400 / unitsPerOne) : Int) - 400

/-- The shortest decimal of the magnitude of a number; seventeen digits always suffice. -/
def shortest (x : Binary64) : Decimal :=
  if x.mantissa = 0 then ⟨0, 0⟩
  else
    let width := x.decimalWidth
    let found := (List.range 17).findSome? fun (k : Nat) =>
      let place := width - (k + 1)
      (x.onGrid? place).map fun n => Decimal.mk n place
    (found.getD ⟨0, 0⟩).normal

end Binary64

end ExperimentKpi
