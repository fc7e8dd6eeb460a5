/-
# Base64 for URLs

Three bytes as four letters of an alphabet that is safe in URLs, without padding. Decoding accepts
nothing but what encoding writes: a last group of one letter, or with bits that belong to no byte, is
refused.

Key definitions: `Base64Url.encode`, `Base64Url.decode?`.
-/
namespace ExperimentKpi.Base64Url

/-- The letter for a number below 64. -/
def letter (n : Nat) : Char :=
  if n < 26 then Char.ofNat ('A'.toNat + n)
  else if n < 52 then Char.ofNat ('a'.toNat + (n - 26))
  else if n < 62 then Char.ofNat ('0'.toNat + (n - 52))
  else if n = 62 then '-'
  else '_'

/-- The number of a letter. -/
def value? (c : Char) : Option Nat :=
  if 'A' ≤ c ∧ c ≤ 'Z' then some (c.toNat - 'A'.toNat)
  else if 'a' ≤ c ∧ c ≤ 'z' then some (c.toNat - 'a'.toNat + 26)
  else if '0' ≤ c ∧ c ≤ '9' then some (c.toNat - '0'.toNat + 52)
  else if c = '-' then some 62
  else if c = '_' then some 63
  else none

/-- The letters for bytes. -/
def encode : List UInt8 → List Char
  | a :: b :: c :: r =>
    let n := a.toNat * 65536 + b.toNat * 256 + c.toNat
    letter (n / 262144) :: letter (n / 4096 % 64) :: letter (n / 64 % 64) :: letter (n % 64) ::
      encode r
  | [a, b] =>
    let n := a.toNat * 256 + b.toNat
    [letter (n / 1024), letter (n / 16 % 64), letter (n % 16 * 4)]
  | [a] => [letter (a.toNat / 4), letter (a.toNat % 4 * 16)]
  | [] => []

/-- The bytes that letters stand for. -/
def decode? : List Char → Option (List UInt8)
  | a :: b :: c :: d :: r => do
    let n := (← value? a) * 262144 + (← value? b) * 4096 + (← value? c) * 64 + (← value? d)
    let rest ← decode? r
    return UInt8.ofNat (n / 65536) :: UInt8.ofNat (n / 256 % 256) :: UInt8.ofNat (n % 256) :: rest
  | [a, b, c] => do
    let n := (← value? a) * 4096 + (← value? b) * 64 + (← value? c)
    if n % 4 = 0 then return [UInt8.ofNat (n / 1024), UInt8.ofNat (n / 4 % 256)] else none
  | [a, b] => do
    let n := (← value? a) * 64 + (← value? b)
    if n % 16 = 0 then return [UInt8.ofNat (n / 16)] else none
  | [_] => none
  | [] => some []

end ExperimentKpi.Base64Url
