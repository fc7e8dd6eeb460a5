/-
# KPI settings

What an experiment counts: the unit that visitors are counted by and one definition per KPI, each
with its groups of conditions. Definitions and condition groups keep every member that has no meaning
here, in `extra`; sub-conditions reach the templates as they are.

Key definitions: `BasedOn`, `KpiType`, `ConditionType`, `ConditionGroup`, `Definition`, `Settings`,
`Settings.toJson`, `Settings.IsConsistent`.
-/
import ExperimentKpi.Json.Basic

namespace ExperimentKpi

/-- The unit that a KPI is counted by. -/
inductive BasedOn where
  | overall
  | session
  | easyId
  | memberId
deriving DecidableEq, Repr

/-- The kinds of KPI definitions. -/
inductive KpiType where
  | conversion
  | click
  | clickThroughConversion
  | custom
deriving DecidableEq, Repr

/-- What a group of conditions looks at. -/
inductive ConditionType where
  | url
  | customParameter
  | addToCart
  | conversionUrl
  | conversionCustomParameter
  | conversionAddToCart
  | r2d2
deriving DecidableEq, Repr

/-- The written forms of units. -/
def BasedOn.names : List (String × BasedOn) :=
  [("overall", .overall), ("session", .session), ("easy_id", .easyId), ("member_id", .memberId)]

/-- The written form of a unit. -/
def BasedOn.name : BasedOn → String
  | overall => "overall"
  | session => "session"
  | easyId => "easy_id"
  | memberId => "member_id"

/-- The written forms of kinds of definitions. -/
def KpiType.names : List (String × KpiType) :=
  [("conversion", .conversion), ("click", .click),
    ("clickThroughConversion", .clickThroughConversion), ("custom", .custom)]

/-- The written form of a kind of definitions. -/
def KpiType.name : KpiType → String
  | conversion => "conversion"
  | click => "click"
  | clickThroughConversion => "clickThroughConversion"
  | custom => "custom"

/-- The written forms of types of condition groups. -/
def ConditionType.names : List (String × ConditionType) :=
  [("url", .url), ("custom_parameter", .customParameter), ("add_to_cart", .addToCart),
    ("conversion_url", .conversionUrl),
    ("conversion_custom_parameter", .conversionCustomParameter),
    ("conversion_add_to_cart", .conversionAddToCart), ("r2d2", .r2d2)]

/-- The written form of a type of condition groups. -/
def ConditionType.name : ConditionType → String
  | url => "url"
  | customParameter => "custom_parameter"
  | addToCart => "add_to_cart"
  | conversionUrl => "conversion_url"
  | conversionCustomParameter => "conversion_custom_parameter"
  | conversionAddToCart => "conversion_add_to_cart"
  | r2d2 => "r2d2"

/-- Whether a group is on the conversion side of a click-through conversion. -/
def ConditionType.isConversion : ConditionType → Bool
  | conversionUrl | conversionCustomParameter | conversionAddToCart => true
  | _ => false

/-- A group of conditions. -/
structure ConditionGroup where
  type : ConditionType
  conditions : List Json
  extra : Members

/-- The definition of one KPI. -/
structure Definition where
  name : String
  isMain : Bool
  type : Option KpiType
  patternName : Option String
  patternId : Option String
  conditions : List ConditionGroup
  extra : Members

/-- The KPI settings of an experiment. -/
structure Settings where
  basedOn : BasedOn
  definitions : List Definition

namespace ConditionGroup

/-- A group as JSON: the members that have a meaning, then the others. -/
def toJson (g : ConditionGroup) : Json :=
  .obj (("condition_type", .str g.type.name) :: ("conditions", .arr g.conditions) :: g.extra)

end ConditionGroup

/-- A member whose value may be missing. -/
def optionalMember (key : String) : Option String → Members
  | some text => [(key, .str text)]
  | none => []

namespace Definition

/-- A definition as JSON: the members that have a meaning, those without a value left out, then the
others. -/
def toJson (d : Definition) : Json :=
  .obj ([("kpi_definition_name", .str d.name), ("main_kpi", .bool d.isMain)]
    ++ optionalMember "kpi_type" (d.type.map KpiType.name)
    ++ optionalMember "pattern_name" d.patternName
    ++ optionalMember "pattern_id" d.patternId
    ++ [("kpi_conditions", .arr (d.conditions.map ConditionGroup.toJson))]
    ++ d.extra)

/-- Whether some group is of the r2d2 type. -/
def hasR2d2 (d : Definition) : Bool :=
  d.conditions.any fun g => g.type == .r2d2

/-- Whether the KPI is a click-through conversion. -/
def isClickThroughConversion (d : Definition) : Bool :=
  d.type == some .clickThroughConversion

end Definition

namespace Settings

/-- Settings as JSON. -/
def toJson (s : Settings) : Json :=
  .obj [("based_on", .str s.basedOn.name),
    ("kpi_definitions", .arr (s.definitions.map Definition.toJson))]

/-- The names of the definitions, in order. -/
def names (s : Settings) : List String :=
  s.definitions.map (·.name)

/-- No name occurs twice, and exactly one definition is the main one. -/
def IsConsistent (s : Settings) : Prop :=
  s.names.Nodup ∧ s.definitions.countP (·.isMain) = 1

instance (s : Settings) : Decidable s.IsConsistent := by
  unfold IsConsistent
  infer_instance

end Settings

end ExperimentKpi
