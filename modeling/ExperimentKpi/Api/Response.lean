/-
# Responses

What a client gets back: a status, and a body that is a document, a text or nothing. Failures of the
service are told as a document; requests that never reach it are turned away with a status alone.

Key definitions: `Response`, `Refusal`, `Answer.response`, `Failure.response`,
`Refusal.response`.
-/
import ExperimentKpi.Service.Kpi

namespace ExperimentKpi

/-- The body of a response. -/
inductive Body where
  | empty
  | text (s : String)
  | document (v : Json)

/-- A response. -/
structure Response where
  status : Nat
  body : Body

/-- Why a request gets no answer: it is turned away with a status, or the service fails. -/
inductive Refusal where
  | turnedAway (status : Nat)
  | failed (f : Failure)
deriving DecidableEq, Repr

/-- A response with a status alone. -/
def Response.bare (status : Nat) : Response :=
  ⟨status, .empty⟩

/-- The response without its body. -/
def Response.bodiless (r : Response) : Response :=
  { r with body := .empty }

/-- A failure as a document. -/
def Failure.toJson (f : Failure) : Json :=
  .obj [("code", .int f.status), ("message", .str f.publicMessage)]

/-- The response to a failure. -/
def Failure.response (f : Failure) : Response :=
  ⟨f.status, .document f.toJson⟩

/-- The response to a request that gets no answer. -/
def Refusal.response : Refusal → Response
  | turnedAway status => .bare status
  | failed f => f.response

/-- A text that may be missing. -/
def Json.ofText? : Option String → Json
  | some s => .str s
  | none => .null

/-- An integer that may be missing. -/
def Json.ofInt? : Option Int → Json
  | some z => .int z
  | none => .null

/-- A KPI as a document. -/
def KpiDetail.toJson (d : KpiDetail) : Json :=
  .obj [("based_on", d.basedOn), ("kpi_definitions", d.definitions),
    ("experimentId", .int d.experiment), ("kpiId", .int d.kpi),
    ("reactionQuery", .ofText? d.reaction), ("reportQuery", .ofText? d.report),
    (QueryKind.reaction.customizedKey, .bool d.reactionIsCustom),
    (QueryKind.report.customizedKey, .bool d.reportIsCustom)]

/-- An entry of a list of KPIs as a document. -/
def KpiSummary.toJson (k : KpiSummary) : Json :=
  .obj [("kpiId", .int k.kpi), ("name", .str k.name), ("updatedBy", .ofInt? k.updatedBy),
    ("outdated", .bool k.outdated)]

namespace Answer

/-- The status of the response with an answer. -/
def status : Answer → Nat
  | created _ => 201
  | _ => 200

/-- An answer as a document. -/
def toJson : Answer → Json
  | created kpi => .obj [("kpiId", .int kpi)]
  | updated experiment kpi => .obj [("experimentId", .int experiment), ("kpiId", .int kpi)]
  | deleted kpi => .obj [("kpiId", .int kpi)]
  | detail d => d.toJson
  | customized kind => .obj [(kind.customizedKey, .bool true)]
  | page p entries =>
    .obj [("pagination", p.toJson), ("records", .arr (entries.map KpiSummary.toJson))]

/-- The response with an answer. -/
def response (a : Answer) : Response :=
  ⟨a.status, .document a.toJson⟩

end Answer

end ExperimentKpi
