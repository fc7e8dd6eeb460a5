/-
# Numbers of documents

A number of a document is an exact integer, or, where it has a fraction or an exponent or does not
fit 64 bits, a binary64 number. The two kinds are told apart by `same` and compared by value, after
rounding to binary64, by `equalValue`.

A literal is read as its significand times a power of ten: of the significand the digits that fit 64
bits are kept and the digits after them dropped, and the power of ten enters by one rounded
multiplication or division (several below `10^-308`). A float is written with its shortest digits
and always with a point or an exponent.

Key definitions: `Number`, `Number.toBinary64`, `Number.same`, `Number.equalValue`,
`Number.Literal`, `Number.Literal.value?`, `FloatLayout`, `Number.text`.
-/
import ExperimentKpi.Number.Shortest
import ExperimentKpi.Text.Integer

namespace ExperimentKpi

/-- A number of a document. -/
inductive Number where
  | int (value : Int)
  | float (value : Binary64)
deriving DecidableEq

namespace Number

/-- The nearest binary64 number. -/
def toBinary64 : Number → Binary64
  | int z => .ofInt z
  | float x => x

/-- Equality that tells an integer from a float. -/
def same : Number → Number → Bool
  | int a, int b => a == b
  | float a, float b => a.same b
  | _, _ => false

/-- Equality of the nearest binary64 numbers. -/
def equalValue (a b : Number) : Bool :=
  a.toBinary64.same b.toBinary64

/-- Whether the nearest binary64 number is a zero. -/
def isZero (a : Number) : Bool :=
  a.toBinary64.isZero

/-- The parts of a number as a document spells it: a sign, the digits before the point, the digits
after it if there is a point, and the exponent if there is one. -/
structure Literal where
  negative : Bool
  whole : List Char
  fraction : Option (List Char)
  exponent : Option (Bool × List Char)

/-- The largest number of 64 bits. -/
def maxWord : Nat := wordSize - 1

/-- The digits of a significand that are kept: as many as fit 64 bits, with the number of those that
are dropped. -/
def keptDigits : Nat → List Char → Nat × Nat
  | n, [] => (n, 0)
  | n, c :: r =>
    if 10 * n + Text.digitValue c ≤ maxWord then keptDigits (10 * n + Text.digitValue c) r
    else (n, r.length + 1)

/-- `n · 10^place` for a `place` from -308 to 308, by one rounded step. -/
def scaleOnce? (x : Binary64) (place : Int) : Option Binary64 :=
  let power := Binary64.ofRatio? false (Nat.pow 10 place.natAbs) 1
  if 0 ≤ place then power.bind x.mul? else power.bind x.div?

/-- A number times a power of ten: none beyond the finite numbers, and by steps of `10^-308` where
the power is below that. Each step takes the power nearer to zero. -/
def scale? (x : Binary64) (place : Int) : Option Binary64 :=
  if -308 ≤ place ∧ place ≤ 308 then scaleOnce? x place
  else if x.isZero then some x
  else if 0 ≤ place then none
  else (scaleOnce? x (-308)).bind fun y => scale? y (place + 308)
termination_by place.natAbs
decreasing_by omega

/-- The float of a literal, none where it exceeds every finite number. -/
def Literal.float? (l : Literal) : Option Number :=
  let (whole, dropped) := keptDigits 0 l.whole
  let (significand, place) : Nat × Int :=
    match l.fraction with
    | none => (whole, dropped)
    | some digits =>
      let (n, rest) := keptDigits whole digits
      (n, (dropped : Int) + rest - digits.length)
  let shift : Int := match l.exponent with
    | none => 0
    | some (true, digits) => -(Text.digitsValue digits : Int)
    | some (false, digits) => Text.digitsValue digits
  (scale? (.ofNat significand) (place + shift)).map fun x => float { x with negative := l.negative }

/-- The number of a literal: an integer if it has neither point nor exponent, fits 64 bits and is
not the negative zero; else a float. -/
def Literal.value? (l : Literal) : Option Number :=
  match l.fraction, l.exponent with
  | none, none =>
    let n := Text.digitsValue l.whole
    if l.negative then
      if 0 < n ∧ n ≤ int64Bound then some (int (-n)) else l.float?
    else if n ≤ maxWord then some (int n)
    else l.float?
  | _, _ => l.float?

/-- How a float is written: with a point where its first digit lies fewer than `small` places after
the point and no more than `large` before it, or where its `full` digits reach to `fullLarge`
places; else with an exponent. -/
structure FloatLayout where
  small : Int
  large : Int
  full : Nat
  fullLarge : Int

/-- Documents write floats with a point from `0.00001` to below `10^16`, and whole numbers of
seventeen digits up to eighteen places. -/
def documentLayout : FloatLayout := ⟨5, 16, 17, 18⟩

/-- The text of digits with the point after the first `width` of them; zeros fill the places that
the digits do not reach. -/
def pointed (digits : List Char) (width : Int) : List Char :=
  if width ≤ 0 then ['0', '.'] ++ List.replicate width.natAbs '0' ++ digits
  else
    let n := width.toNat
    if digits.length ≤ n then digits ++ List.replicate (n - digits.length) '0' ++ ['.', '0']
    else digits.take n ++ '.' :: digits.drop n

/-- The text of digits with a point after the first of them, if there are more, and an exponent. -/
def scientific (digits : List Char) (exponent : Int) : List Char :=
  let mantissa := match digits with
    | [] => []
    | [d] => [d]
    | d :: r => d :: '.' :: r
  mantissa ++ 'e' :: (toString exponent).toList

/-- The text of a float. -/
def floatText (layout : FloatLayout) (x : Binary64) : List Char :=
  let d := x.shortest
  let digits := Nat.toDigits 10 d.digits
  let width := d.exponent + digits.length
  let plain := -layout.small < width ∧ width ≤ layout.large ∨
    digits.length = layout.full ∧ width ≤ layout.fullLarge ∧ 0 ≤ d.exponent
  let body :=
    if x.isZero then ['0', '.', '0']
    else if plain then pointed digits width
    else scientific digits (width - 1)
  if x.negative then '-' :: body else body

/-- The text of a number in a document. -/
def text : Number → List Char
  | int z => (toString z).toList
  | float x => floatText documentLayout x

end Number

end ExperimentKpi
