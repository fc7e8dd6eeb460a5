/-
# Patterns

A pattern names the leaf condition that a visitor was bucketed into, together with its variation. The
patterns of a design are found by a walk from every root variation into the variations that
conditions nest; a design that nests too deep, in a circle or into nothing has none.

Key definitions: `Pattern`, `Pattern.identifier`, `Design.walk`, `Design.patterns`,
`Design.identifiers`, `Design.resolve`.
-/
import ExperimentKpi.Collect
import ExperimentKpi.Design.Basic
import ExperimentKpi.Failure
import ExperimentKpi.Text.Case

namespace ExperimentKpi

/-- A leaf condition with its variation and the kind of the variation in lower case. -/
structure Pattern where
  kind : String
  variation : Int
  condition : Int
deriving DecidableEq, Repr

namespace Pattern

/-- The pattern of a condition of a variation. -/
def ofCondition (v : Variation) (condition : Int) : Pattern :=
  ⟨Text.lower v.kind, v.id, condition⟩

/-- The printed form. -/
def identifier (p : Pattern) : String :=
  s!"{p.kind}__{p.variation}__{p.condition}"

end Pattern

namespace Design

/-- How many variations a chain of nested ones may have. -/
def maxDepth : Nat := 64

/-- The patterns below a variation: `budget` more variations may be entered, and those of `path`
must not be met again. -/
def walk (d : Design) : Nat → List Int → Variation → Except Failure (List Pattern)
  | 0, _, v => .error (.nestedTooDeep v.experiment maxDepth)
  | budget + 1, path, v =>
    if v.id ∈ path then .error (.nestedInItself v.id v.experiment)
    else
      collect (fun c =>
        match c.nested with
        | none => .ok [Pattern.ofCondition v c.id]
        | some id =>
          match d.variation? id with
          | none => .error (.missingNested c.id id)
          | some w => d.walk budget (v.id :: path) w)
        (d.conditionsOf v.id)

/-- The patterns of a design, root by root and depth first. -/
def patterns (d : Design) : Except Failure (List Pattern) :=
  collect (d.walk maxDepth []) (d.variations.filter (·.isRoot))

/-- The printed patterns of a design. -/
def identifiers (d : Design) : Except Failure (List String) :=
  d.patterns.map (·.map Pattern.identifier)

/-- The printed pattern of the one condition with a name. -/
def resolve (d : Design) (name : String) : Except Failure String :=
  match d.ownedConditions.filter fun c => c.name == name with
  | [] => .error (.unknownPattern name)
  | [c] =>
    match d.variation? c.variation with
    | some v => .ok (Pattern.ofCondition v c.id).identifier
    | none => .error (.strayCondition c.id c.variation)
  | cs => .error (.ambiguousPattern name (cs.map (·.id)))

end Design

/-- The models whose experiments map KPI definitions to patterns. -/
def patternMappedModels : List String :=
  ["MPB_MODEL", "CMO_MODEL"]

/-- Whether one of the models maps definitions to patterns. -/
def usesPatternMapping (models : List String) : Bool :=
  models.any (· ∈ patternMappedModels)

end ExperimentKpi
