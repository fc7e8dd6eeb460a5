/-
# Pattern ids in settings

Where an experiment runs a pattern-mapped model, every definition that names a pattern gets the
printed pattern as `pattern_id`. The name may stand anywhere in the definition: a definition's own
member comes before those of its parts, which are searched in document order. The definitions are
done in turn; the first name that does not resolve ends the work, and what was set before stays.

Key definitions: `Json.patternName?`, `Json.withPatternId`, `assignPatternIds`,
`assignToDefinitions`.
-/
import ExperimentKpi.Design.Pattern
import ExperimentKpi.Json.Basic

namespace ExperimentKpi

namespace Json

mutual

/-- The first text at a key `pattern_name` in a value: its own, then those of its parts. -/
def patternName? : Json → Option String
  | obj ms =>
    match Members.get? ms "pattern_name" with
    | some (str name) => some name
    | _ => membersPatternName? ms
  | arr items => itemsPatternName? items
  | _ => none

/-- The first pattern name in items. -/
def itemsPatternName? : List Json → Option String
  | [] => none
  | x :: r => (patternName? x).or (itemsPatternName? r)

/-- The first pattern name in the values of members. -/
def membersPatternName? : List (String × Json) → Option String
  | [] => none
  | (_, v) :: r => (patternName? v).or (membersPatternName? r)

end

/-- A definition with a pattern id; only an object can have one. -/
def withPatternId (id : String) : Json → Json
  | obj ms => obj (Members.put "pattern_id" (.str id) ms)
  | v => v

end Json

/-- Pattern ids for definitions in turn, up to the first failure. -/
def assignToDefinitions (design : Design) : List Json → List Json × Except Failure Unit
  | [] => ([], .ok ())
  | d :: r =>
    match d.patternName? with
    | none =>
      let (ds, result) := assignToDefinitions design r
      (d :: ds, result)
    | some name =>
      match design.resolve name with
      | .error e => (d :: r, .error e)
      | .ok id =>
        let (ds, result) := assignToDefinitions design r
        (d.withPatternId id :: ds, result)

/-- The document with pattern ids, and whether the work was called for. A document without a list of
definitions stays as it is. -/
def assignPatternIds (design : Design) (models : List String) (document : Json) :
    Json × Except Failure Bool :=
  if usesPatternMapping models then
    match document with
    | .obj ms =>
      match Members.get? ms "kpi_definitions" with
      | some (.arr definitions) =>
        let (ds, result) := assignToDefinitions design definitions
        (.obj (Members.put "kpi_definitions" (.arr ds) ms), result.map fun _ => true)
      | _ => (document, .ok true)
    | _ => (document, .ok true)
  else (document, .ok false)

end ExperimentKpi
