/-
# Variation designs

The design of an experiment: its variations, each with the conditions that target visitors. A
condition may nest another variation instead of naming a pattern of its own. Rows come in any order
and are kept in the order of their ids.

Key definitions: `Variation`, `Condition`, `Design`, `Design.ofRows`.
-/
namespace ExperimentKpi

/-- One arm of an experiment. -/
structure Variation where
  id : Int
  experiment : Int
  kind : String
  isRoot : Bool
deriving DecidableEq, Repr

/-- A targeting condition of a variation. -/
structure Condition where
  id : Int
  variation : Int
  name : String
  nested : Option Int
deriving DecidableEq, Repr

/-- The variations and conditions of an experiment, in the order of their ids. -/
structure Design where
  variations : List Variation
  conditions : List Condition
deriving DecidableEq, Repr

namespace Design

/-- The design that rows in any order make up; rows of the same id keep their order. -/
def ofRows (variations : List Variation) (conditions : List Condition) : Design where
  variations := variations.mergeSort fun v w => decide (v.id ≤ w.id)
  conditions := conditions.mergeSort fun c d => decide (c.id ≤ d.id)

/-- The variation with an id. -/
def variation? (d : Design) (id : Int) : Option Variation :=
  d.variations.find? fun v => v.id == id

/-- The conditions of a variation. -/
def conditionsOf (d : Design) (variation : Int) : List Condition :=
  d.conditions.filter fun c => c.variation == variation

/-- The conditions of all variations, variation by variation. -/
def ownedConditions (d : Design) : List Condition :=
  d.variations.flatMap fun v => d.conditionsOf v.id

end Design

end ExperimentKpi
