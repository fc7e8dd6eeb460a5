/-
# Kinds of queries

Every KPI has two queries: the reaction query, which collects what visitors did, and the report
query. A path names one of them as `reaction_query` or `report_query`.

Key definitions: `QueryKind`, `QueryKind.ofSegment`, `QueryKind.customizedKey`.
-/
import ExperimentKpi.Failure

namespace ExperimentKpi

/-- The two queries of a KPI. -/
inductive QueryKind where
  | reaction
  | report
deriving DecidableEq, Repr

namespace QueryKind

/-- The name of a kind. -/
def name : QueryKind → String
  | reaction => "reaction"
  | report => "report"

/-- The kind with a name. -/
def ofName? (name : List Char) : Option QueryKind :=
  if name = "reaction".toList then some reaction
  else if name = "report".toList then some report
  else none

/-- What a text has before a given ending, if it has that ending. -/
def beforeEnding? (ending s : List Char) : Option (List Char) :=
  if ending.isSuffixOf s then some (s.take (s.length - ending.length)) else none

/-- The kind that a path's segment names. -/
def ofSegment (segment : String) : Except Failure QueryKind :=
  match beforeEnding? "_query".toList segment.toList with
  | some name =>
    match ofName? name with
    | some kind => .ok kind
    | none => .error (.unsupportedQuery (String.ofList name))
  | none => .error (.unsupportedQuery segment)

/-- The key under which responses tell whether the query was replaced by a custom one. -/
def customizedKey (kind : QueryKind) : String :=
  s!"if_{kind.name}Query_customized"

end QueryKind

end ExperimentKpi
