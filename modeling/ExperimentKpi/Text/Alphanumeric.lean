/-
# Letters and digits

Membership in a class of characters that is given by its bounds, and the class of letters and
digits of every script, which names in templates are made of.

Key definitions: `Text.withinBounds`, `Text.isAlphanumeric`, `Text.isDigit`.
-/
import ExperimentKpi.Text.AlphanumericTable

namespace ExperimentKpi.Text

/-- Whether `n` lies in the class with the given increasing bounds: an odd number of them is at or
below `n`. -/
def withinBounds (bounds : List Nat) (n : Nat) : Bool :=
  (bounds.takeWhile (· ≤ n)).length % 2 == 1

/-- The ten decimal digits of ASCII. -/
def isDigit (c : Char) : Bool :=
  '0' ≤ c && c ≤ '9'

/-- Letters and digits of every script: Alphabetic, or of general category Nd, Nl or No. -/
def isAlphanumeric (c : Char) : Bool :=
  if c.toNat < 0x80 then isDigit c || ('a' ≤ c && c ≤ 'z') || ('A' ≤ c && c ≤ 'Z')
  else withinBounds alphanumericBounds c.toNat

end ExperimentKpi.Text
