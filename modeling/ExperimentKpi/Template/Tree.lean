/-
# The tree of a template

Outputs, loops and choices over paths and literals. A path starts with a name and goes on by keys
and indices; it remembers its spelling, which messages show.

Key definitions: `Template.Path`, `Template.Operand`, `Template.Filter`, `Template.Output`,
`Template.Cond`, `Template.Node`, `Template.Path.ofText`.
-/
import ExperimentKpi.Json.Printer
import ExperimentKpi.Template.Error
import ExperimentKpi.Text.Blank
import ExperimentKpi.Text.Integer

namespace ExperimentKpi.Template

/-- One step of a path after its first name. -/
inductive Segment where
  | key (name : String)
  | index (n : Nat)
deriving DecidableEq, Repr

/-- A path: the name that it starts with, the steps after it, and its spelling. -/
structure Path where
  source : String
  root : String
  steps : List Segment
deriving DecidableEq, Repr

/-- A part of a path: a number within 64 bits is an index, all else is a key. -/
def Segment.ofText (s : List Char) : Segment :=
  match Text.word? s with
  | some n => index n
  | none => key (String.ofList s)

/-- The path that a text spells with dots between its parts. -/
def Path.ofText (s : List Char) : Except Cause Path :=
  let parts := Text.splitAt (· == '.') s
  if parts.any List.isEmpty then .error (.invalidPath (String.ofList s))
  else
    match parts.map Segment.ofText with
    | .key root :: steps => .ok ⟨String.ofList s, root, steps⟩
    | _ => .error (.pathWithoutName (String.ofList s))

/-- A value as an expression names it. -/
inductive Operand where
  | path (p : Path)
  | literal (v : Json)

/-- What an operand is called in messages. -/
def Operand.label : Operand → String
  | path p => p.source
  | literal v => v.compact

/-- What an output does with its value before it is printed. -/
inductive Filter where
  | join (separator : String)
  | lower
  | upper
  | length
  | fallback (text : String)
deriving DecidableEq, Repr

/-- The name of a filter. -/
def Filter.name : Filter → String
  | join _ => "join"
  | lower => "lower"
  | upper => "upper"
  | length => "length"
  | fallback _ => "default"

/-- The content of an output. -/
structure Output where
  operand : Operand
  filters : List Filter

/-- How a condition compares two values. -/
inductive Comparison where
  | eq
  | ne
  | isIn
  | notIn
deriving DecidableEq, Repr

/-- A condition. -/
inductive Cond where
  | operand (x : Operand)
  | compare (left : Operand) (op : Comparison) (right : Operand)
  | not (c : Cond)
  | and (left right : Cond)
  | or (left right : Cond)

/-- A node of a template. A choice takes the body of its first branch whose condition holds, else
`otherwise`. -/
inductive Node where
  | text (content : List Char)
  | output (o : Output)
  | loop (name : String) (source : Path) (body : List Node)
  | choice (branches : List (Cond × List Node)) (otherwise : List Node)

end ExperimentKpi.Template
