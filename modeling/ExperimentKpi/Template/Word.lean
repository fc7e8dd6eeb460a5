/-
# Words of expressions

The content of an output, and of a tag after its keyword, is a row of words: names (with dots in
them), string literals, integers, the two comparison signs, parentheses and the bar. In a string
literal a backslash takes the next character as it is.

Key definitions: `Template.Word`, `Template.Word.describe`, `Template.words`.
-/
import ExperimentKpi.Template.Error
import ExperimentKpi.Text.Blank
import ExperimentKpi.Text.Integer
import ExperimentKpi.Text.Quoted

namespace ExperimentKpi.Template

/-- The smallest parts of an expression. -/
inductive Word where
  | name (text : String)
  | str (value : String)
  | int (value : Int)
  | eq
  | ne
  | openParen
  | closeParen
  | bar
deriving DecidableEq, Repr

/-- A word as messages show it. -/
def Word.describe : Word → String
  | name text => s!"Ident({Text.quoted text})"
  | str value => s!"Str({Text.quoted value})"
  | int value => s!"Int({value})"
  | eq => "Eq"
  | ne => "Ne"
  | openParen => "LParen"
  | closeParen => "RParen"
  | bar => "Pipe"

/-- A string literal after its opening quote `q`: the value, and the text after the closing
quote. -/
def stringBody? (q : Char) : List Char → Option (List Char × List Char)
  | [] => none
  | '\\' :: c :: r => (stringBody? q r).map fun (value, rest) => (c :: value, rest)
  | c :: r =>
    if c = q then some ([], r)
    else (stringBody? q r).map fun (value, rest) => (c :: value, rest)

/-- The characters that names consist of. -/
def isNameChar (c : Char) : Bool :=
  Text.isAlphanumeric c || c == '_' || c == '.'

/-- The characters that names start with. -/
def isNameStart (c : Char) : Bool :=
  Text.isAlphanumeric c || c == '_'

/-- Whether an integer starts here: a digit, or a minus sign and a digit. -/
def startsInteger : List Char → Bool
  | '-' :: d :: _ => Text.isDigit d
  | c :: _ => Text.isDigit c
  | [] => false

/-- The integer literal at the head of a text in which one starts. -/
def integerWord (c : Char) (r : List Char) : Except Cause (Word × List Char) :=
  let literal := c :: r.takeWhile Text.isDigit
  match Text.int64? literal with
  | some z => .ok (.int z, r.dropWhile Text.isDigit)
  | none => .error (.invalidInteger (String.ofList literal))

/-- The word that starts with `c`, which is no blank, and the text after it. -/
def nextWord (c : Char) (r : List Char) : Except Cause (Word × List Char) :=
  if c = '(' then .ok (.openParen, r)
  else if c = ')' then .ok (.closeParen, r)
  else if c = '|' then .ok (.bar, r)
  else if (c = '=' ∨ c = '!') ∧ r.head? = some '=' then
    .ok (if c = '=' then .eq else .ne, r.tail)
  else if c = '\'' ∨ c = '"' then
    match stringBody? c r with
    | some (value, rest) => .ok (.str (String.ofList value), rest)
    | none => .error .unterminatedString
  else if startsInteger (c :: r) then integerWord c r
  else if isNameStart c then
    .ok (.name (String.ofList (c :: r.takeWhile isNameChar)), r.dropWhile isNameChar)
  else .error (.unexpectedCharacter c)

theorem stringBody?_length {q : Char} {s value rest : List Char}
    (h : stringBody? q s = some (value, rest)) : rest.length < s.length := by
  fun_induction stringBody? q s generalizing value rest with
  | case1 => simp at h
  | case2 c r ih =>
    simp only [Option.map_eq_some_iff, Prod.exists, Prod.mk.injEq] at h
    obtain ⟨v, r', hr, -, rfl⟩ := h
    have := ih hr
    simp only [List.length_cons]
    omega
  | case3 => simp_all
  | case4 c r _ _ ih =>
    simp only [Option.map_eq_some_iff, Prod.exists, Prod.mk.injEq] at h
    obtain ⟨v, r', hr, -, rfl⟩ := h
    have := ih hr
    simp only [List.length_cons]
    omega

theorem dropWhile_length_le (p : Char → Bool) (s : List Char) :
    (s.dropWhile p).length ≤ s.length :=
  (List.dropWhile_sublist p).length_le

theorem nextWord_length {c : Char} {r rest : List Char} {w : Word}
    (h : nextWord c r = .ok (w, rest)) : rest.length ≤ r.length := by
  unfold nextWord at h
  repeat' split at h
  all_goals try simp only [Except.ok.injEq, Prod.mk.injEq, reduceCtorEq] at h
  · simp [← h.2]
  · simp [← h.2]
  · simp [← h.2]
  · simp [← h.2]
  · simp [← h.2]
  · rename_i hs
    have := stringBody?_length hs
    rw [← h.2]
    omega
  · unfold integerWord at h
    simp only at h
    split at h
    · simp only [Except.ok.injEq, Prod.mk.injEq] at h
      rw [← h.2]
      exact dropWhile_length_le _ _
    · simp at h
  · rw [← h.2]
    exact dropWhile_length_le _ _

/-- The words of an expression. -/
def words (s : List Char) : Except Cause (List Word) :=
  match s with
  | [] => .ok []
  | c :: r =>
    if Text.isBlank c then words r
    else
      match _h : nextWord c r with
      | .ok (w, rest) => (words rest).map (w :: ·)
      | .error e => .error e
termination_by s.length
decreasing_by
  · simp
  · have := nextWord_length _h
    simp only [List.length_cons]
    omega

end ExperimentKpi.Template
