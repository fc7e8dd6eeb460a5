/-
# Upper and lower case

The full Unicode case mappings of a text. A character may map to several (`ß` to `SS`), and a
capital sigma becomes the final form at the end of a word: after a cased letter and not before one,
where case-ignorable characters are passed over.

Key definitions: `Text.lowerChar`, `Text.upperChar`, `Text.lower`, `Text.upper`.
-/
import ExperimentKpi.Text.Alphanumeric
import ExperimentKpi.Text.CaseTable

namespace ExperimentKpi.Text

/-- Whether the code point `n` is in the run. -/
def CaseRun.contains (run : CaseRun) (n : Nat) : Bool :=
  run.first ≤ n && n ≤ run.last && (n - run.first) % run.step == 0

/-- The mapping of one character: its several characters if it has them, else the shift of its run,
else itself. -/
def mapChar (runs : List CaseRun) (specials : List (Nat × List Nat)) (c : Char) : List Char :=
  match specials.lookup c.toNat with
  | some codes => codes.map Char.ofNat
  | none =>
    match runs.find? (·.contains c.toNat) with
    | some run => [Char.ofNat (c.toNat + run.shift).toNat]
    | none => [c]

/-- The lower case of one character, sigma in its common form. -/
def lowerChar (c : Char) : List Char :=
  if c.toNat < 0x80 then [if 'A' ≤ c && c ≤ 'Z' then Char.ofNat (c.toNat + 32) else c]
  else mapChar lowerRuns lowerSpecials c

/-- The upper case of one character. -/
def upperChar (c : Char) : List Char :=
  if c.toNat < 0x80 then [if 'a' ≤ c && c ≤ 'z' then Char.ofNat (c.toNat - 32) else c]
  else mapChar upperRuns upperSpecials c

/-- The characters of the property Cased. -/
def isCased (c : Char) : Bool :=
  withinBounds casedBounds c.toNat

/-- The characters of the property Case_Ignorable. -/
def isCaseIgnorable (c : Char) : Bool :=
  withinBounds caseIgnorableBounds c.toNat

/-- Whether the first character that is not case-ignorable is a cased one. -/
def meetsCased (s : List Char) : Bool :=
  (s.dropWhile isCaseIgnorable).head?.any isCased

/-- The lower case of a text whose characters before it are `before`, the nearest first. -/
def lowerAfter (before : List Char) : List Char → List Char
  | [] => []
  | c :: r =>
    let here := if c = 'Σ' then (if meetsCased before && !meetsCased r then ['ς'] else ['σ'])
      else lowerChar c
    here ++ lowerAfter (c :: before) r

/-- The lower case of a text. -/
def lower (s : String) : String :=
  String.ofList (lowerAfter [] s.toList)

/-- The upper case of a text. -/
def upper (s : String) : String :=
  String.ofList (s.toList.flatMap upperChar)

end ExperimentKpi.Text
