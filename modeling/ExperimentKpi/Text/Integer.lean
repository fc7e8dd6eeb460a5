/-
# Integers in texts

Reading a decimal integer within bounds. A sign is optional, nothing else may stand around the
digits, and leading zeros are allowed.

Key definitions: `Text.digitsValue`, `Text.natural?`, `Text.unsigned?`, `Text.signed?`, `Text.word?`,
`Text.int64?`.
-/
import ExperimentKpi.Number.Word
import ExperimentKpi.Text.Alphanumeric

namespace ExperimentKpi.Text

/-- The value of one decimal digit. -/
def digitValue (c : Char) : Nat :=
  c.toNat - '0'.toNat

/-- The number that a row of decimal digits spells. -/
def digitsValue (s : List Char) : Nat :=
  s.foldl (fun n c => 10 * n + digitValue c) 0

/-- The number spelled by a text that consists of one or more decimal digits. -/
def natural? (s : List Char) : Option Nat :=
  if !s.isEmpty && s.all isDigit then some (digitsValue s) else none

/-- A number below `bound`, where a plus sign may stand in front. -/
def unsigned? (bound : Nat) (s : List Char) : Option Nat :=
  let digits := match s with
    | '+' :: r => r
    | _ => s
  (natural? digits).filter (· < bound)

/-- An integer of at least `-bound` and less than `bound`, where a sign may stand in front. -/
def signed? (bound : Nat) (s : List Char) : Option Int :=
  let value : Option Int := match s with
    | '+' :: r => (natural? r).map Int.ofNat
    | '-' :: r => (natural? r).map fun n => -Int.ofNat n
    | _ => (natural? s).map Int.ofNat
  value.filter fun z => decide (-(bound : Int) ≤ z ∧ z < bound)

/-- A number of 64 bits. -/
def word? (s : List Char) : Option Nat :=
  unsigned? wordSize s

/-- A signed integer of 64 bits. -/
def int64? (s : List Char) : Option Int :=
  signed? int64Bound s

end ExperimentKpi.Text
