/-
# Texts quoted for a message

A text between double quotes in which quotes, backslashes and control characters are escaped with a
backslash, and every other character without a form of its own (unprintable, or a mark that attaches
to the character before it) is given by its code point in hexadecimal, as in `\u{301}`.

Key definitions: `Text.isPrintable`, `Text.escapeChar`, `Text.quoted`.
-/
import ExperimentKpi.Text.Alphanumeric
import ExperimentKpi.Text.PrintableTable

namespace ExperimentKpi.Text

/-- Characters with a visible form that stands alone. -/
def isPrintable (c : Char) : Bool :=
  !withinBounds graphemeExtendBounds c.toNat && !withinBounds unprintableBounds c.toNat

/-- The form of one character inside the quotes. -/
def escapeChar (c : Char) : List Char :=
  if c = '\t' then ['\\', 't']
  else if c = '\r' then ['\\', 'r']
  else if c = '\n' then ['\\', 'n']
  else if c.toNat = 0 then ['\\', '0']
  else if c = '\\' ∨ c = '"' then ['\\', c]
  else if isPrintable c then [c]
  else ['\\', 'u', '{'] ++ Nat.toDigits 16 c.toNat ++ ['}']

/-- A text between double quotes, escaped. -/
def quoted (s : String) : String :=
  String.ofList ('"' :: s.toList.flatMap escapeChar ++ ['"'])

end ExperimentKpi.Text
