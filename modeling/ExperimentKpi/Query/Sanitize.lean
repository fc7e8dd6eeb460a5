/-
# Sanitizing query text

Rendered text becomes a query: entities are decoded, literals escaped, and the one terminator that
is misread as part of a literal, the one on the line after `RCFILE`, is restored.

Key definitions: `Query.escapeStage`, `Query.sanitize`.
-/
import ExperimentKpi.Query.Entity
import ExperimentKpi.Query.Literal

namespace ExperimentKpi.Query

/-- The end of a table definition: `RCFILE`, a line feed, and what stands before the semicolon. -/
def tableEnd (before : List Char) : List Char :=
  ['R', 'C', 'F', 'I', 'L', 'E', '\n'] ++ before ++ [';']

/-- Literals escaped, and the semicolon of a table definition's end restored. -/
def escapeStage (s : List Char) : List Char :=
  replaceAll (tableEnd ['\\']) (tableEnd []) (escapeLiterals s)

/-- The query that rendered text becomes. -/
def sanitize (s : List Char) : List Char :=
  escapeStage (decodeEntities s)

end ExperimentKpi.Query
