/-
# Expressions of templates

Outputs are an operand and filters behind bars. Conditions are, from the weakest binding to the
strongest: `or`, `and`, `not`, comparison; the first two associate to the left, and parentheses
group. A budget bounds how deep `not` and parentheses nest; the recursion is on it.

Key definitions: `Template.operand`, `Template.output`, `Template.chain`, `Template.unary`,
`Template.condition`.
-/
import ExperimentKpi.Template.Tree
import ExperimentKpi.Template.Word

namespace ExperimentKpi.Template

/-- A reader of something at the head of a row of words. -/
abbrev Reader (α : Type) := List Word → Except Cause (α × List Word)

/-- The value that a name stands for, if it is one of the literals' names. -/
def literalName? (name : String) : Option Json :=
  if name = "true" ∨ name = "True" then some (.bool true)
  else if name = "false" ∨ name = "False" then some (.bool false)
  else if name = "none" ∨ name = "None" ∨ name = "null" then some .null
  else none

/-- The words that connect conditions and name nothing. -/
def isKeyword (name : String) : Bool :=
  name == "and" || name == "or" || name == "not" || name == "in"

/-- The operand that a name is. -/
def nameOperand (name : String) : Except Cause Operand :=
  match literalName? name with
  | some v => .ok (.literal v)
  | none =>
    if isKeyword name then .error (.unexpectedKeyword name)
    else (Path.ofText name.toList).map .path

/-- A string, an integer or a name. -/
def operand : Reader Operand
  | .str value :: r => .ok (.literal (.str value), r)
  | .int value :: r => .ok (.literal (.int value), r)
  | .name name :: r => (nameOperand name).map fun x => (x, r)
  | w :: _ => .error (.unexpectedToken w.describe)
  | [] => .error .missingValue

/-- Nothing may be left over. -/
def finish {α : Type} : α × List Word → Except Cause α
  | (x, []) => .ok x
  | (_, w :: _) => .error (.unexpectedToken w.describe)

/-- The argument of a filter: one string between parentheses. -/
def filterArgument (filter : String) : Reader String
  | .openParen :: .str value :: .closeParen :: r => .ok (value, r)
  | _ => .error (.badFilterArgument filter)

/-- A filter's name and argument. -/
def filter : Reader Filter
  | .name name :: r =>
    if name = "lower" then .ok (.lower, r)
    else if name = "upper" then .ok (.upper, r)
    else if name = "length" then .ok (.length, r)
    else if name = "join" then (filterArgument name r).map fun (s, r') => (.join s, r')
    else if name = "default" then (filterArgument name r).map fun (s, r') => (.fallback s, r')
    else .error (.unknownFilter name)
  | _ => .error .missingFilter

theorem filterArgument_length {f : String} {ws rest : List Word} {s : String}
    (h : filterArgument f ws = .ok (s, rest)) : rest.length < ws.length := by
  unfold filterArgument at h
  split at h
  · simp only [Except.ok.injEq, Prod.mk.injEq] at h
    simp only [← h.2, List.length_cons]
    omega
  · simp at h

theorem map_ok_iff {ε α β : Type} {f : α → β} {x : Except ε α} {b : β} :
    x.map f = .ok b ↔ ∃ a, x = .ok a ∧ f a = b := by
  cases x <;> simp [Except.map]

theorem filter_length {ws rest : List Word} {f : Filter} (h : filter ws = .ok (f, rest)) :
    rest.length < ws.length := by
  unfold filter at h
  repeat' split at h
  all_goals try simp only [Except.ok.injEq, Prod.mk.injEq, reduceCtorEq] at h
  all_goals try (simp only [← h.2, List.length_cons]; omega)
  all_goals
    simp only [map_ok_iff, Prod.exists, Prod.mk.injEq] at h
    obtain ⟨s, r', hr, -, rfl⟩ := h
    have := filterArgument_length hr
    simp only [List.length_cons]
    omega

/-- Filters, each behind a bar. -/
def filters (ws : List Word) : Except Cause (List Filter × List Word) :=
  match ws with
  | .bar :: r =>
    match _h : filter r with
    | .ok (f, rest) => (filters rest).map fun (fs, rest') => (f :: fs, rest')
    | .error e => .error e
  | _ => .ok ([], ws)
termination_by ws.length
decreasing_by
  have := filter_length _h
  simp only [List.length_cons]
  omega

/-- The content of an output. -/
def output (ws : List Word) : Except Cause Output := do
  let (x, r) ← operand ws
  let (fs, r) ← filters r
  finish (⟨x, fs⟩, r)

/-- The comparison sign at the head of a row of words. -/
def comparison? : List Word → Option (Comparison × List Word)
  | .eq :: r => some (.eq, r)
  | .ne :: r => some (.ne, r)
  | .name "in" :: r => some (.isIn, r)
  | .name "not" :: .name "in" :: r => some (.notIn, r)
  | _ => none

/-- An operand, or two with a comparison between them. -/
def compared : Reader Cond := fun ws => do
  let (left, r) ← operand ws
  match comparison? r with
  | some (op, r) =>
    let (right, r) ← operand r
    return (.compare left op right, r)
  | none => return (.operand left, r)

/-- What follows `left` in a row of parts with the word `word` between them, combined from the left.
A part that uses up no word ends the row. -/
def chainFrom (word : String) (combine : Cond → Cond → Cond) (part : Reader Cond) (left : Cond)
    (ws : List Word) : Except Cause (Cond × List Word) :=
  match ws with
  | .name w :: r =>
    if w = word then
      match part r with
      | .ok (right, rest) =>
        if rest.length ≤ r.length then chainFrom word combine part (combine left right) rest
        else .ok (combine left right, rest)
      | .error e => .error e
    else .ok (left, ws)
  | _ => .ok (left, ws)
termination_by ws.length
decreasing_by
  simp only [List.length_cons]
  omega

/-- One or more parts with the word `word` between them, combined from the left. -/
def chain (word : String) (combine : Cond → Cond → Cond) (part : Reader Cond) : Reader Cond :=
  fun ws => do
    let (left, r) ← part ws
    chainFrom word combine part left r

/-- Alternatives of conjunctions of the given parts. -/
def alternatives (part : Reader Cond) : Reader Cond :=
  chain "or" .or (chain "and" .and part)

/-- A negation, a condition in parentheses or a comparison, with `budget` levels left for the first
two. -/
def unary : Nat → Reader Cond
  | 0, .name "not" :: _ => .error .tooDeep
  | 0, .openParen :: _ => .error .tooDeep
  | budget + 1, .name "not" :: r => (unary budget r).map fun (c, rest) => (.not c, rest)
  | budget + 1, .openParen :: r => do
    match ← alternatives (unary budget) r with
    | (c, .closeParen :: rest) => .ok (c, rest)
    | _ => .error .missingParenthesis
  | _, ws => compared ws

/-- A whole condition. -/
def condition (ws : List Word) : Except Cause Cond := do
  finish (← alternatives (unary maxNesting) ws)

/-- The output that a text spells. -/
def Output.ofText (s : List Char) : Except Cause Output := do
  output (← words s)

/-- The condition that a text spells. -/
def Cond.ofText (s : List Char) : Except Cause Cond := do
  condition (← words s)

end ExperimentKpi.Template
