/-
# Compact JSON text

The text of a value without any space: members in their order, quotes, backslashes and control
characters escaped and every other character as it is.

Key definitions: `Json.escape`, `Json.literal`, `Json.print`, `Json.compact`.
-/
import ExperimentKpi.Json.Basic

namespace ExperimentKpi.Json

/-- A digit of a hexadecimal number, in lower case. -/
def hexDigit (n : Nat) : Char :=
  if n < 10 then Char.ofNat ('0'.toNat + n) else Char.ofNat ('a'.toNat + (n - 10))

/-- The form of one character inside a string literal. -/
def escape (c : Char) : List Char :=
  if c = '"' then ['\\', '"']
  else if c = '\\' then ['\\', '\\']
  else if c = '\n' then ['\\', 'n']
  else if c = '\r' then ['\\', 'r']
  else if c = '\t' then ['\\', 't']
  else if c.toNat = 8 then ['\\', 'b']
  else if c.toNat = 12 then ['\\', 'f']
  else if c.toNat < 32 then
    ['\\', 'u', '0', '0', hexDigit (c.toNat / 16), hexDigit (c.toNat % 16)]
  else [c]

/-- The literal of a text. -/
def literal (s : String) : List Char :=
  '"' :: s.toList.flatMap escape ++ ['"']

mutual

/-- The compact text of a value. -/
def print : Json → List Char
  | null => ['n', 'u', 'l', 'l']
  | bool true => ['t', 'r', 'u', 'e']
  | bool false => ['f', 'a', 'l', 's', 'e']
  | num n => n.text
  | str s => literal s
  | arr [] => ['[', ']']
  | arr (x :: xs) => '[' :: print x ++ printItems xs ++ [']']
  | obj [] => ['{', '}']
  | obj ((k, v) :: r) => '{' :: literal k ++ ':' :: print v ++ printMembers r ++ ['}']

/-- The items after the first one, each after a comma. -/
def printItems : List Json → List Char
  | [] => []
  | x :: xs => ',' :: print x ++ printItems xs

/-- The members after the first one, each after a comma. -/
def printMembers : List (String × Json) → List Char
  | [] => []
  | (k, v) :: r => ',' :: literal k ++ ':' :: print v ++ printMembers r

end

/-- The compact text of a value. -/
def compact (v : Json) : String :=
  String.ofList v.print

end ExperimentKpi.Json
