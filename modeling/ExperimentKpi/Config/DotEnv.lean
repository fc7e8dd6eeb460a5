/-
# Files of variables

A `.env` file sets variables line by line: a key, an equals sign and a value, with `export` allowed
in front. Values may be quoted in two ways, over several lines if they are; weak quotes and bare
values know escapes and substitute variables behind a dollar sign. A comment stands behind a blank. The
first line that cannot be read ends the file; what was set before stays.

Key definitions: `DotEnv.logicalLines`, `DotEnv.line?`, `DotEnv.load`.
-/
import ExperimentKpi.Text.Alphanumeric
import ExperimentKpi.Text.Blank

namespace ExperimentKpi.DotEnv

/-- Where the end of a physical line finds the reader. -/
inductive Quoting where
  | bare
  | afterBlank
  | escape
  | weak
  | weakEscape
  | strong
  | strongEscape
  | comment
deriving DecidableEq

/-- One character more. -/
def Quoting.step (q : Quoting) (c : Char) : Quoting :=
  match q with
  | afterBlank =>
    if c = '#' then comment
    else if c = '\\' then escape
    else if c = '"' then weak
    else if c = '\'' then strong
    else bare
  | escape => bare
  | bare =>
    if Text.isBlank c ∧ c ≠ '\n' ∧ c ≠ '\r' then afterBlank
    else if c = '\\' then escape
    else if c = '"' then weak
    else if c = '\'' then strong
    else bare
  | weak => if c = '\\' then weakEscape else if c = '"' then bare else weak
  | weakEscape => weak
  | strong => if c = '\\' then strongEscape else if c = '\'' then bare else strong
  | strongEscape => strong
  | comment => comment

/-- A physical line read on from a state: the text before a comment, and the state at its end. -/
def scan : Quoting → List Char → List Char × Quoting
  | q, [] => ([], q)
  | q, c :: r =>
    match q.step c with
    | .comment => ([], .comment)
    | q' => ((c :: (scan q' r).1), (scan q' r).2)

/-- Physical lines, each with its line feed. -/
def physicalLines : List Char → List (List Char)
  | [] => []
  | c :: r =>
    if c = '\n' then ['\n'] :: physicalLines r
    else
      match r, physicalLines r with
      | [], _ => [[c]]
      | _, l :: ls => (c :: l) :: ls
      | _, [] => [[c]]

/-- A line without its end. -/
def chomp (s : List Char) : List Char :=
  match s.reverse with
  | '\n' :: '\r' :: r => r.reverse
  | '\n' :: r => r.reverse
  | _ => s

/-- The logical lines of physical ones, where `begun` is a logical line in a state in which it goes
on; none stands for a quote that is never closed. -/
def joinLines (begun : List Char) (q : Quoting) : List (List Char) → List (Option (List Char))
  | [] => if q = .bare then [] else [none]
  | l :: ls =>
    if (Text.trimStart (begun ++ l)).head? = some '#' then some [] :: joinLines [] .bare ls
    else
      let (text, q') := scan q l
      match q' with
      | .bare => some (chomp (begun ++ l)) :: joinLines [] .bare ls
      | .comment => some (begun ++ text) :: joinLines [] .bare ls
      | .afterBlank => joinLines (begun ++ l) .afterBlank ls
      | q' => joinLines (begun ++ l) q' ls

/-- The logical lines of a file. -/
def logicalLines (s : List Char) : List (Option (List Char)) :=
  joinLines [] .bare (physicalLines s)

/-- The variables that are set, the latest first. -/
abbrev Variables := List (String × String)

/-- How a substitution that has begun is delimited. -/
inductive Substitution where
  | none
  | plain (name : List Char)
  | braced (name : List Char)

/-- A value under construction. -/
structure Reading where
  strong : Bool := false
  weak : Bool := false
  escaped : Bool := false
  ending : Bool := false
  done : Bool := false
  substitution : Substitution := .none
  output : List Char := []

/-- The value of a variable; empty if it is not set. -/
def valueOf (vars : Variables) (name : List Char) : List Char :=
  ((vars.lookup (String.ofList name)).getD "").toList

namespace Reading

/-- More text in the value. -/
def write (s : Reading) (text : List Char) : Reading :=
  { s with output := s.output ++ text }

/-- One character more; none where it may not stand. -/
def step (vars : Variables) (s : Reading) (c : Char) : Option Reading :=
  if s.done then some s
  else if s.ending then
    if c = ' ' ∨ c = '\t' then some s
    else if c = '#' then some { s with done := true }
    else Option.none
  else if s.escaped then
    let s := { s with escaped := false }
    if c ∈ ['\\', '\'', '"', '$', ' '] then some (s.write [c])
    else if c = 'n' then some (s.write ['\n'])
    else Option.none
  else if s.strong then
    if c = '\'' then some { s with strong := false } else some (s.write [c])
  else
    match s.substitution with
    | .plain name =>
      if Text.isAlphanumeric c then some { s with substitution := .plain (name ++ [c]) }
      else if c = '{' ∧ name = [] then some { s with substitution := .braced [] }
      else
        let s := s.write (valueOf vars name)
        if c = '$' then some { s with substitution := .plain [] }
        else some ({ s with substitution := .none }.write [c])
    | .braced name =>
      if c = '}' then some ({ s with substitution := .none }.write (valueOf vars name))
      else some { s with substitution := .braced (name ++ [c]) }
    | .none =>
      if c = '$' then some { s with substitution := .plain [] }
      else if s.weak then
        if c = '"' then some { s with weak := false }
        else if c = '\\' then some { s with escaped := true }
        else some (s.write [c])
      else if c = '\'' then some { s with strong := true }
      else if c = '"' then some { s with weak := true }
      else if c = '\\' then some { s with escaped := true }
      else if c = ' ' ∨ c = '\t' then some { s with ending := true }
      else some (s.write [c])

/-- The finished value; none where a quote or a brace is open. -/
def finish (vars : Variables) (s : Reading) : Option String :=
  if s.strong ∨ s.weak then Option.none
  else
    match s.substitution with
    | .braced _ => Option.none
    | .plain name => some (String.ofList (s.output ++ valueOf vars name))
    | .none => some (String.ofList s.output)

end Reading

/-- The value that a text spells. -/
def value? (vars : Variables) (s : List Char) : Option String :=
  (s.foldlM (Reading.step vars) {}).bind (Reading.finish vars)

/-- A key at the head of a text. -/
def key? (s : List Char) : Option (String × List Char) :=
  let isWord (c : Char) : Bool := ('a' ≤ c && c ≤ 'z') || ('A' ≤ c && c ≤ 'Z') || c == '_'
  let isKey (c : Char) : Bool := isWord c || Text.isDigit c || c == '.'
  match s with
  | c :: r =>
    if isWord c then some (String.ofList (c :: r.takeWhile isKey), r.dropWhile isKey) else none
  | [] => none

/-- The text after an equals sign, blanks around it passed over. -/
def afterEquals? (s : List Char) : Option (List Char) :=
  match Text.trimStart s with
  | '=' :: r => some (Text.trimStart r)
  | _ => none

/-- What a line sets, blanks at its ends aside: nothing, or a key to a value; none if the line cannot be
read. -/
def line? (vars : Variables) (s : List Char) : Option (Option (String × String)) :=
  match Text.trim s with
  | [] => some none
  | '#' :: _ => some none
  | s => do
    let (key, r) ← key? s
    let (key, r) ←
      match afterEquals? r with
      | some r => some (key, r)
      | none =>
        if key = "export" then do
          let (key, r) ← key? (Text.trimStart r)
          let r ← afterEquals? r
          some (key, r)
        else none
    match r with
    | [] => some (some (key, ""))
    | '#' :: _ => some (some (key, ""))
    | _ => (value? vars r).map fun v => some (key, v)

/-- The variables after lines; one that is set already keeps its value. -/
def loadLines (vars : Variables) : List (Option (List Char)) → Variables
  | [] => vars
  | none :: _ => vars
  | some l :: ls =>
    match line? vars l with
    | none => vars
    | some none => loadLines vars ls
    | some (some (key, v)) =>
      loadLines (if (vars.lookup key).isSome then vars else (key, v) :: vars) ls

/-- The variables after a file. -/
def load (vars : Variables) (file : String) : Variables :=
  let text := match file.toList with
    | c :: r => if c.toNat = 0xfeff then r else c :: r
    | [] => []
  loadLines vars (logicalLines text)

end ExperimentKpi.DotEnv
