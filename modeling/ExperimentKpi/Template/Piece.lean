/-
# Pieces of a template's text

A template's text is a row of plain stretches and of delimited pieces: outputs, tags and comments.
A delimited piece ends at the first closing delimiter after its opening one, quotes or not. The
pieces with their delimiters, put together again, are the text.

A dash next to a delimiter trims the plain stretch on that side, if one is adjacent. Comments and
stretches that are empty after trimming leave no token.

Key definitions: `Template.Delimiter`, `Template.Piece`, `Template.pieces`, `Template.Inner`,
`Template.Token`, `Template.tokens`.
-/
import ExperimentKpi.Template.Error
import ExperimentKpi.Text.Blank

namespace ExperimentKpi.Template

/-- The three kinds of delimited pieces. -/
inductive Delimiter where
  | output
  | tag
  | comment
deriving DecidableEq, Repr

namespace Delimiter

/-- The kind that an opening brace followed by `c` opens. -/
def ofChar? : Char → Option Delimiter
  | '{' => some output
  | '%' => some tag
  | '#' => some comment
  | _ => none

/-- The character after the opening brace. -/
def opening : Delimiter → Char
  | output => '{'
  | tag => '%'
  | comment => '#'

/-- The character before the closing brace. -/
def closing : Delimiter → Char
  | output => '}'
  | tag => '%'
  | comment => '#'

end Delimiter

/-- A stretch of plain text, or what stands between two delimiters. -/
inductive Piece where
  | plain (content : List Char)
  | delimited (kind : Delimiter) (inner : List Char)
deriving DecidableEq, Repr

/-- The text of a piece, its delimiters included. -/
def Piece.source : Piece → List Char
  | plain content => content
  | delimited kind inner => '{' :: kind.opening :: inner ++ [kind.closing, '}']

/-- The number of bytes that a text takes. -/
def byteLength (s : List Char) : Nat :=
  s.foldr (fun c n => c.utf8Size + n) 0

/-- The kind of the opening delimiter at the head of a text, and the text after it. -/
def opened? : List Char → Option (Delimiter × List Char)
  | '{' :: d :: r => (Delimiter.ofChar? d).map fun kind => (kind, r)
  | _ => none

/-- A text up to its first opening delimiter, and the text from there. -/
def plainRun : List Char → List Char × List Char
  | [] => ([], [])
  | c :: r =>
    if (opened? (c :: r)).isSome then ([], c :: r)
    else (c :: (plainRun r).1, (plainRun r).2)

/-- A text up to its first `c` that a closing brace follows, and the text after that brace. -/
def closeAt? (c : Char) : List Char → Option (List Char × List Char)
  | a :: b :: r =>
    if a = c ∧ b = '}' then some ([], r)
    else (closeAt? c (b :: r)).map fun (inner, rest) => (a :: inner, rest)
  | _ => none

theorem opened?_append {s body : List Char} {kind : Delimiter}
    (h : opened? s = some (kind, body)) : s = '{' :: kind.opening :: body := by
  unfold opened? at h
  split at h
  · simp only [Option.map_eq_some_iff, Prod.mk.injEq] at h
    obtain ⟨k, hk, rfl, rfl⟩ := h
    unfold Delimiter.ofChar? at hk
    split at hk <;> simp_all [Delimiter.opening] <;> simp [← hk]
  · simp at h

theorem plainRun_append (s : List Char) : (plainRun s).1 ++ (plainRun s).2 = s := by
  fun_induction plainRun s <;> simp_all

theorem plainRun_length (s : List Char) : (plainRun s).2.length ≤ s.length := by
  conv => rhs; rw [← plainRun_append s, List.length_append]
  omega

theorem closeAt?_append {c : Char} {s inner rest : List Char}
    (h : closeAt? c s = some (inner, rest)) : s = inner ++ c :: '}' :: rest := by
  fun_induction closeAt? c s generalizing inner rest with
  | case1 a b r hc => simp_all
  | case2 a b r hc ih =>
    simp only [Option.map_eq_some_iff, Prod.exists, Prod.mk.injEq] at h
    obtain ⟨i, r', hr, rfl, rfl⟩ := h
    rw [ih hr, List.cons_append]
  | case3 => simp at h

theorem closeAt?_length {c : Char} {s inner rest : List Char}
    (h : closeAt? c s = some (inner, rest)) : rest.length < s.length := by
  rw [closeAt?_append h]
  simp
  omega

/-- The pieces of a text that starts at the byte `offset`, each with the byte at which it starts. -/
def piecesFrom (offset : Nat) (s : List Char) : Except ParseError (List (Nat × Piece)) :=
  match s with
  | [] => .ok []
  | c :: r =>
    match _h : opened? (c :: r) with
    | some (kind, body) =>
      match _hc : closeAt? kind.closing body with
      | some (inner, rest) =>
        let piece := Piece.delimited kind inner
        (piecesFrom (offset + byteLength piece.source) rest).map ((offset, piece) :: ·)
      | none => .error ⟨offset, .unclosedDelimiter (String.ofList [kind.closing, '}'])⟩
    | none =>
      let content := c :: (plainRun r).1
      (piecesFrom (offset + byteLength content) (plainRun r).2).map ((offset, .plain content) :: ·)
termination_by s.length
decreasing_by
  · have := closeAt?_length _hc
    rw [opened?_append _h]
    simp only [List.length_cons]
    omega
  · have := plainRun_length r
    simp only [List.length_cons]
    omega

/-- The pieces of a template's text. -/
def pieces (s : List Char) : Except ParseError (List (Nat × Piece)) :=
  piecesFrom 0 s

/-- What stands between two delimiters: the trim marks and the content without blanks around it. -/
structure Inner where
  trimBefore : Bool
  trimAfter : Bool
  content : List Char
deriving DecidableEq, Repr

/-- The marks and the content of an inner text. A single dash is an opening mark only. -/
def Inner.ofText (s : List Char) : Inner :=
  let (before, body) := match s with
    | '-' :: r => (true, r)
    | _ => (false, s)
  let after := body.getLast? == some '-'
  ⟨before, after, Text.trim (if after then body.dropLast else body)⟩

/-- A part of a template that means something. -/
inductive Token where
  | text (content : List Char)
  | output (offset : Nat) (content : List Char)
  | tag (offset : Nat) (content : List Char)
deriving DecidableEq, Repr

/-- Whether the pieces start with a delimited one that trims the text before it. -/
def trimsBefore : List (Nat × Piece) → Bool
  | (_, .delimited _ inner) :: _ => (Inner.ofText inner).trimBefore
  | _ => false

/-- The tokens of pieces; `trimmed` says whether the piece before them trims the text after it. -/
def tokensAfter (trimmed : Bool) : List (Nat × Piece) → List Token
  | [] => []
  | (_, .plain content) :: r =>
    let content := if trimmed then Text.trimStart content else content
    let content := if trimsBefore r then Text.trimEnd content else content
    if content.isEmpty then tokensAfter false r else .text content :: tokensAfter false r
  | (offset, .delimited kind inner) :: r =>
    let inner := Inner.ofText inner
    match kind with
    | .output => .output offset inner.content :: tokensAfter inner.trimAfter r
    | .tag => .tag offset inner.content :: tokensAfter inner.trimAfter r
    | .comment => tokensAfter inner.trimAfter r

/-- The tokens of a template's text. -/
def tokens (s : List Char) : Except ParseError (List Token) :=
  (pieces s).map (tokensAfter false)

end ExperimentKpi.Template
