/-
# What can be wrong with a template

A template is refused with the byte offset of the tag or output at fault and a cause; the rendering
of an accepted template can fail on the values it meets.

Key definitions: `Template.Cause`, `Template.ParseError`, `Template.RenderError`,
`Template.maxNesting`, with `message` for each.
-/
namespace ExperimentKpi.Template

/-- How deep loops and choices may nest, and within one condition `not` and parentheses. -/
def maxNesting : Nat := 32

/-- Why the text of a template is refused. -/
inductive Cause where
  | unclosedDelimiter (closing : String)
  | unterminatedString
  | invalidInteger (text : String)
  | unexpectedCharacter (c : Char)
  | invalidPath (text : String)
  | pathWithoutName (text : String)
  | unexpectedKeyword (word : String)
  | unexpectedToken (description : String)
  | missingValue
  | missingFilter
  | unknownFilter (name : String)
  | badFilterArgument (filter : String)
  | missingParenthesis
  | unexpectedTag (keyword : String)
  | badLoopHeader
  | badLoopVariable (name : String)
  | unclosedLoop
  | unclosedChoice
  | tooDeep
deriving DecidableEq, Repr

/-- A cause and the byte offset of the delimiter that opens the part at fault. -/
structure ParseError where
  offset : Nat
  cause : Cause
deriving DecidableEq, Repr

/-- The two kinds of values without a text of their own. -/
inductive Compound where
  | array
  | object
deriving DecidableEq, Repr

/-- Why an accepted template fails on a context; `label` names the value as the template does. -/
inductive RenderError where
  | notPrintable (label : String) (kind : Compound)
  | notIterable (label : String)
  | badFilterInput (filter : String) (label : String)
deriving DecidableEq, Repr

/-- The wording of a cause. -/
def Cause.message : Cause → String
  | unclosedDelimiter closing => s!"unclosed delimiter, expected '{closing}'"
  | unterminatedString => "unterminated string literal"
  | invalidInteger text => s!"invalid integer '{text}'"
  | unexpectedCharacter c => s!"unexpected character '{c}'"
  | invalidPath text => s!"invalid path '{text}'"
  | pathWithoutName text => s!"path '{text}' must start with a name"
  | unexpectedKeyword word => s!"unexpected keyword '{word}'"
  | unexpectedToken description => s!"unexpected token {description}"
  | missingValue => "expected a value"
  | missingFilter => "expected filter name after '|'"
  | unknownFilter name => s!"unknown filter '{name}'"
  | badFilterArgument filter => s!"filter '{filter}' takes one string argument"
  | missingParenthesis => "expected ')'"
  | unexpectedTag keyword => s!"unexpected tag '{keyword}'"
  | badLoopHeader => "expected 'for <name> in <path>'"
  | badLoopVariable name => s!"invalid loop variable '{name}'"
  | unclosedLoop => "'for' block is never closed"
  | unclosedChoice => "'if' block is never closed"
  | tooDeep => s!"blocks nested deeper than {maxNesting} levels"

/-- The wording of a refusal. -/
def ParseError.message (e : ParseError) : String :=
  match e.cause with
  | .tooDeep => s!"{e.cause.message} at byte {e.offset}"
  | _ => s!"syntax error at byte {e.offset}: {e.cause.message}"

/-- The word for a kind of values. -/
def Compound.word : Compound → String
  | array => "array"
  | object => "object"

/-- The wording of a failure to render. -/
def RenderError.message : RenderError → String
  | notPrintable label kind =>
    s!"cannot print '{label}': {kind.word} values need a filter such as join"
  | notIterable label => s!"'{label}' is not a list and cannot be iterated"
  | badFilterInput filter label => s!"filter '{filter}' cannot be applied to '{label}'"

end ExperimentKpi.Template
