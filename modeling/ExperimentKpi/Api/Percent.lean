/-
# Percent-encoding

In paths and in query strings a byte may be written as a percent sign and two hexadecimal digits. A
percent sign that no two such digits follow stands for itself. In query strings a plus sign stands
for a blank.

Key definitions: `Percent.decode`, `Percent.decodeText?`, `Percent.pairs`.
-/
import ExperimentKpi.Text.Blank
import ExperimentKpi.Text.Utf8

namespace ExperimentKpi.Percent

/-- The value of the code of a hexadecimal digit. -/
def hexValue? (b : UInt8) : Option UInt8 :=
  if 48 ≤ b ∧ b ≤ 57 then some (b - 48)
  else if 65 ≤ b ∧ b ≤ 70 then some (b - 55)
  else if 97 ≤ b ∧ b ≤ 102 then some (b - 87)
  else none

/-- The bytes that a row of bytes stands for. -/
def decode : List UInt8 → List UInt8
  | 37 :: a :: b :: r =>
    match hexValue? a, hexValue? b with
    | some x, some y => (16 * x + y) :: decode r
    | _, _ => 37 :: decode (a :: b :: r)
  | c :: r => c :: decode r
  | [] => []

/-- The text that a text stands for, if the bytes are those of one. -/
def decodeText? (s : List Char) : Option String :=
  Text.ofUtf8? (decode (Text.utf8 (String.ofList s)))

/-- The text that a part of a query string stands for. -/
def decodePart? (s : List Char) : Option String :=
  decodeText? (s.map fun c => if c = '+' then ' ' else c)

/-- One name with its value. The value is empty where no equals sign stands. -/
def pair (s : List Char) : Option String × Option String :=
  match Text.cutAt? (· == '=') s with
  | some (name, value) => (decodePart? name, decodePart? value)
  | none => (decodePart? s, some "")

/-- The names and values of a query string; empty parts are passed over. -/
def pairs (query : List Char) : List (Option String × Option String) :=
  ((Text.splitAt (· == '&') query).filter fun part => !part.isEmpty).map pair

end ExperimentKpi.Percent
