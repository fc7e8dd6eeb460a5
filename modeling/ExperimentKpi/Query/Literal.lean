/-
# String literals of queries

A literal stands between single quotes; in it a backslash takes the next character with it, which
cannot be a line feed. A quote from which no literal starts is an ordinary character.

The warehouse's command line cuts statements at semicolons and starts comments at two dashes even
inside literals, so both get a backslash there, unless they have one.

Key definitions: `Query.literalBody?`, `Query.escapeBody`, `Query.escapeLiterals`.
-/
namespace ExperimentKpi.Query

/-- A literal after its opening quote: its body, and the text after the closing quote. -/
def literalBody? : List Char → Option (List Char × List Char)
  | [] => none
  | '\'' :: r => some ([], r)
  | '\\' :: c :: r =>
    if c = '\n' then none
    else (literalBody? r).map fun (body, rest) => ('\\' :: c :: body, rest)
  | c :: r =>
    if c = '\\' then none
    else (literalBody? r).map fun (body, rest) => (c :: body, rest)

/-- A literal's body with backslashes before semicolons and pairs of dashes; what follows a
backslash already is copied, a pair of dashes as a whole. -/
def escapeBody : List Char → List Char
  | '\\' :: '-' :: '-' :: r => '\\' :: '-' :: '-' :: escapeBody r
  | '\\' :: c :: r => '\\' :: c :: escapeBody r
  | ';' :: r => '\\' :: ';' :: escapeBody r
  | '-' :: '-' :: r => '\\' :: '-' :: '-' :: escapeBody r
  | c :: r => c :: escapeBody r
  | [] => []

theorem literalBody?_append {s body rest : List Char} (h : literalBody? s = some (body, rest)) :
    s = body ++ '\'' :: rest := by
  fun_induction literalBody? s generalizing body rest with
  | case1 => simp at h
  | case2 r => simp_all
  | case3 => simp at h
  | case4 c r _ ih =>
    simp only [Option.map_eq_some_iff, Prod.exists, Prod.mk.injEq] at h
    obtain ⟨b, r', hr, rfl, rfl⟩ := h
    simp [ih hr]
  | case5 => simp at h
  | case6 c r _ _ _ ih =>
    simp only [Option.map_eq_some_iff, Prod.exists, Prod.mk.injEq] at h
    obtain ⟨b, r', hr, rfl, rfl⟩ := h
    simp [ih hr]

/-- A text with the bodies of its literals escaped. -/
def escapeLiterals (s : List Char) : List Char :=
  match s with
  | [] => []
  | c :: r =>
    if c = '\'' then
      match _h : literalBody? r with
      | some (body, rest) => '\'' :: escapeBody body ++ '\'' :: escapeLiterals rest
      | none => c :: escapeLiterals r
    else c :: escapeLiterals r
termination_by s.length
decreasing_by
  · rw [literalBody?_append _h]
    simp
    omega
  · simp
  · simp

end ExperimentKpi.Query
