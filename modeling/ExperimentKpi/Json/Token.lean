/-
# Tokens of JSON text

A text is cut into punctuation, the three names, numbers and string literals. A literal whose
escapes spell no text (half a surrogate pair) and a number beyond the finite ones still are tokens:
whether they may stand where they stand is for the reader of the tokens to say.

Key definitions: `Json.Token`, `Json.Token.next?`, `Json.tokens?`.
-/
import ExperimentKpi.Json.Basic

namespace ExperimentKpi.Json

/-- The smallest parts of a JSON text. -/
inductive Token where
  | openArray
  | closeArray
  | openObject
  | closeObject
  | comma
  | colon
  | null
  | bool (value : Bool)
  | num (value : Option Number)
  | str (value : Option String)

/-- The four characters that may stand between tokens. -/
def isSpace (c : Char) : Bool :=
  c = ' ' || c = '\n' || c = '\t' || c = '\r'

/-- The value of a hexadecimal digit. -/
def hexValue? (c : Char) : Option Nat :=
  if '0' ≤ c ∧ c ≤ '9' then some (c.toNat - '0'.toNat)
  else if 'a' ≤ c ∧ c ≤ 'f' then some (c.toNat - 'a'.toNat + 10)
  else if 'A' ≤ c ∧ c ≤ 'F' then some (c.toNat - 'A'.toNat + 10)
  else none

/-- The code unit that four hexadecimal digits spell. -/
def unit? (a b c d : Char) : Option Nat := do
  let a ← hexValue? a
  let b ← hexValue? b
  let c ← hexValue? c
  let d ← hexValue? d
  return ((a * 16 + b) * 16 + c) * 16 + d

/-- The character of an escape with one letter. -/
def escaped? : Char → Option Char
  | '"' => some '"'
  | '\\' => some '\\'
  | '/' => some '/'
  | 'b' => some '\x08'
  | 'f' => some '\x0c'
  | 'n' => some '\n'
  | 'r' => some '\r'
  | 't' => some '\t'
  | _ => none

/-- A part of a string literal: a character, or a 16-bit code unit that an escape gives. -/
inductive Part where
  | char (c : Char)
  | unit (n : Nat)

/-- The parts of a string literal up to its closing quote, and the text after the quote. -/
def parts? : List Char → Option (List Part × List Char)
  | [] => none
  | '"' :: r => some ([], r)
  | '\\' :: 'u' :: a :: b :: c :: d :: r => do
    let n ← unit? a b c d
    let (ps, rest) ← parts? r
    return (.unit n :: ps, rest)
  | '\\' :: e :: r => do
    let c ← escaped? e
    let (ps, rest) ← parts? r
    return (.char c :: ps, rest)
  | c :: r =>
    if c.toNat < 0x20 ∨ c = '\\' then none
    else (parts? r).map fun (ps, rest) => (.char c :: ps, rest)

/-- The text of parts: a high and a low surrogate that follow each other are one character, and
neither may stand alone. -/
def partsText? : List Part → Option (List Char)
  | [] => some []
  | .char c :: r => (partsText? r).map (c :: ·)
  | .unit n :: r =>
    if 0xd800 ≤ n ∧ n < 0xdc00 then
      match r with
      | .unit m :: r' =>
        if 0xdc00 ≤ m ∧ m < 0xe000 then
          (partsText? r').map (Char.ofNat (0x10000 + (n - 0xd800) * 0x400 + (m - 0xdc00)) :: ·)
        else none
      | _ => none
    else if 0xdc00 ≤ n ∧ n < 0xe000 then none
    else (partsText? r).map (Char.ofNat n :: ·)

/-- One or more digits at the head of a text, and the text after them. -/
def digits? (s : List Char) : Option (List Char × List Char) :=
  let digits := s.takeWhile Text.isDigit
  if digits.isEmpty then none else some (digits, s.dropWhile Text.isDigit)

/-- The digits before the point: no zero leads others. -/
def whole? (s : List Char) : Option (List Char × List Char) :=
  (digits? s).filter fun (digits, _) => digits.head? != some '0' || digits.length == 1

/-- The point and the digits after it, if there is a point. -/
def fraction? : List Char → Option (Option (List Char) × List Char)
  | '.' :: r => (digits? r).map fun (digits, rest) => (some digits, rest)
  | s => some (none, s)

/-- The exponent, if there is one: whether it is negative, and its digits. -/
def exponent? : List Char → Option (Option (Bool × List Char) × List Char)
  | c :: r =>
    if c = 'e' ∨ c = 'E' then
      match r with
      | '+' :: r' => (digits? r').map fun (digits, rest) => (some (false, digits), rest)
      | '-' :: r' => (digits? r').map fun (digits, rest) => (some (true, digits), rest)
      | _ => (digits? r).map fun (digits, rest) => (some (false, digits), rest)
    else some (none, c :: r)
  | [] => some (none, [])

/-- The number at the head of a text, without its sign. -/
def literal? (negative : Bool) (s : List Char) : Option (Number.Literal × List Char) := do
  let (whole, r) ← whole? s
  let (fraction, r) ← fraction? r
  let (exponent, r) ← exponent? r
  return (⟨negative, whole, fraction, exponent⟩, r)

/-- The token at the head of a text that starts with no space, and the text after it. -/
def Token.next? : List Char → Option (Token × List Char)
  | '[' :: r => some (.openArray, r)
  | ']' :: r => some (.closeArray, r)
  | '{' :: r => some (.openObject, r)
  | '}' :: r => some (.closeObject, r)
  | ',' :: r => some (.comma, r)
  | ':' :: r => some (.colon, r)
  | 'n' :: 'u' :: 'l' :: 'l' :: r => some (.null, r)
  | 't' :: 'r' :: 'u' :: 'e' :: r => some (.bool true, r)
  | 'f' :: 'a' :: 'l' :: 's' :: 'e' :: r => some (.bool false, r)
  | '"' :: r => (parts? r).map fun (ps, rest) => (.str ((partsText? ps).map String.ofList), rest)
  | '-' :: r => (literal? true r).map fun (l, rest) => (.num l.value?, rest)
  | s => (literal? false s).map fun (l, rest) => (.num l.value?, rest)

theorem parts?_length {s : List Char} {ps : List Part} {rest : List Char}
    (h : parts? s = some (ps, rest)) : rest.length < s.length := by
  fun_induction parts? s generalizing ps rest with
  | case1 => simp at h
  | case2 r => simp at h; simp [← h.2]
  | case3 a b c d r ih =>
    simp only [Option.bind_eq_bind, Option.bind_eq_some_iff, Prod.exists] at h
    obtain ⟨n, -, qs, r', hq, he⟩ := h
    have := ih hq
    simp at he
    simp only [← he.2, List.length_cons]
    omega
  | case4 e r _ ih =>
    simp only [Option.bind_eq_bind, Option.bind_eq_some_iff, Prod.exists] at h
    obtain ⟨n, -, qs, r', hq, he⟩ := h
    have := ih hq
    simp at he
    simp only [← he.2, List.length_cons]
    omega
  | case5 => simp at h
  | case6 c r _ _ _ _ ih =>
    simp only [Option.map_eq_some_iff, Prod.exists, Prod.mk.injEq] at h
    obtain ⟨qs, r', hq, -, rfl⟩ := h
    have := ih hq
    simp only [List.length_cons]
    omega

theorem digits?_length {s digits rest : List Char} (h : digits? s = some (digits, rest)) :
    rest.length < s.length := by
  simp only [digits?] at h
  split at h
  · simp at h
  · rename_i hne
    simp only [Option.some.injEq, Prod.mk.injEq] at h
    have hl : (s.takeWhile Text.isDigit).length + (s.dropWhile Text.isDigit).length = s.length := by
      rw [← List.length_append, List.takeWhile_append_dropWhile]
    have : (s.takeWhile Text.isDigit).length ≠ 0 := by simpa using hne
    rw [← h.2]
    omega

theorem whole?_length {s digits rest : List Char} (h : whole? s = some (digits, rest)) :
    rest.length < s.length := by
  rw [whole?, Option.filter_eq_some_iff] at h
  exact digits?_length h.1

theorem fraction?_length {s : List Char} {f : Option (List Char)} {rest : List Char}
    (h : fraction? s = some (f, rest)) : rest.length ≤ s.length := by
  unfold fraction? at h
  split at h
  · simp only [Option.map_eq_some_iff, Prod.exists, Prod.mk.injEq] at h
    obtain ⟨ds, r', hd, -, rfl⟩ := h
    have := digits?_length hd
    simp only [List.length_cons]
    omega
  · simp at h
    simp [h.2]

theorem exponent?_length {s : List Char} {e : Option (Bool × List Char)} {rest : List Char}
    (h : exponent? s = some (e, rest)) : rest.length ≤ s.length := by
  unfold exponent? at h
  split at h
  · split at h
    · split at h <;>
      · simp only [Option.map_eq_some_iff, Prod.exists, Prod.mk.injEq] at h
        obtain ⟨ds, r', hd, -, rfl⟩ := h
        have := digits?_length hd
        simp only [List.length_cons] at *
        omega
    · simp at h
      simp [← h.2]
  · simp at h
    simp [h.2]

theorem literal?_length {negative : Bool} {s : List Char} {l : Number.Literal} {rest : List Char}
    (h : literal? negative s = some (l, rest)) : rest.length < s.length := by
  simp only [literal?, Option.bind_eq_bind, Option.bind_eq_some_iff, Prod.exists] at h
  obtain ⟨w, r1, h1, f, r2, h2, e, r3, h3, h4⟩ := h
  have := whole?_length h1
  have := fraction?_length h2
  have := exponent?_length h3
  simp at h4
  rw [← h4.2]
  omega

theorem Token.next?_length {s : List Char} {t : Token} {rest : List Char}
    (h : Token.next? s = some (t, rest)) : rest.length < s.length := by
  unfold Token.next? at h
  split at h
  all_goals first
    | (simp only [Option.some.injEq, Prod.mk.injEq] at h
       simp only [← h.2, List.length_cons]
       omega)
    | skip
  · simp only [Option.map_eq_some_iff, Prod.exists, Prod.mk.injEq] at h
    obtain ⟨ps, r', hp, -, rfl⟩ := h
    have := parts?_length hp
    simp only [List.length_cons]
    omega
  · simp only [Option.map_eq_some_iff, Prod.exists, Prod.mk.injEq] at h
    obtain ⟨l, r', hl, -, rfl⟩ := h
    have := literal?_length hl
    simp only [List.length_cons]
    omega
  · simp only [Option.map_eq_some_iff, Prod.exists, Prod.mk.injEq] at h
    obtain ⟨l, r', hl, -, rfl⟩ := h
    exact literal?_length hl

/-- The tokens of a text; none where some part of it is no token. -/
def tokens? (s : List Char) : Option (List Token) :=
  match s with
  | [] => some []
  | c :: r =>
    if isSpace c then tokens? r
    else
      match _h : Token.next? (c :: r) with
      | none => none
      | some (t, rest) => (tokens? rest).map (t :: ·)
termination_by s.length
decreasing_by
  · simp
  · exact Token.next?_length _h

end ExperimentKpi.Json
