/-
# Blank characters

White space as the Unicode property White_Space has it, with the trimming and the cutting into words
that the readers of this library share. Texts are lists of characters here: every operation is a
recursion on them.

Key definitions: `Text.isBlank`, `Text.trimStart`, `Text.trimEnd`, `Text.trim`, `Text.words`.
-/
namespace ExperimentKpi.Text

/-- The characters of the Unicode property White_Space. -/
def isBlank (c : Char) : Bool :=
  let n := c.toNat
  (9 ≤ n && n ≤ 13) || n == 0x20 || n == 0x85 || n == 0xa0 || n == 0x1680 ||
    (0x2000 ≤ n && n ≤ 0x200a) || n == 0x2028 || n == 0x2029 || n == 0x202f || n == 0x205f ||
    n == 0x3000

/-- A text without its leading blanks. -/
def trimStart (s : List Char) : List Char :=
  s.dropWhile isBlank

/-- A text without its trailing blanks. -/
def trimEnd (s : List Char) : List Char :=
  (s.reverse.dropWhile isBlank).reverse

/-- A text without the blanks at its two ends. -/
def trim (s : List Char) : List Char :=
  trimEnd (trimStart s)

/-- A text cut at every character that satisfies `p`; the cuts themselves are dropped, so `n` cuts
give `n + 1` parts, some of them possibly empty. -/
def splitAt (p : Char → Bool) : List Char → List (List Char)
  | [] => [[]]
  | c :: r =>
    if p c then [] :: splitAt p r
    else match splitAt p r with
      | [] => [[c]]
      | w :: ws => (c :: w) :: ws

/-- The maximal runs of characters that are not blank, in order. -/
def words (s : List Char) : List (List Char) :=
  (splitAt isBlank s).filter fun w => !w.isEmpty

/-- A text up to its first character that satisfies `p`, and the text after that character. -/
def cutAt? (p : Char → Bool) : List Char → Option (List Char × List Char)
  | [] => none
  | c :: r => if p c then some ([], r) else (cutAt? p r).map fun (a, b) => (c :: a, b)

theorem splitAt_ne_nil (p : Char → Bool) (s : List Char) : splitAt p s ≠ [] := by
  cases s with
  | nil => simp [splitAt]
  | cons c r =>
    simp only [splitAt]
    split
    · simp
    · split <;> simp

end ExperimentKpi.Text
