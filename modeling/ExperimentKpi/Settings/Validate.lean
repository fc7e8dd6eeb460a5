/-
# Accepting settings

A body is accepted as settings if it is not empty, has the required shape, reads as settings and
passes the checks on the settings themselves. Broken shapes are reported with every violation, in
the order of their texts; all later faults share one message. Stored settings go through the same
checks, the shape aside.

Key definitions: `Settings.IsAcceptable`, `Settings.check`, `Settings.validate`,
`Settings.revalidate`.
-/
import ExperimentKpi.Failure
import ExperimentKpi.Settings.Reader
import ExperimentKpi.Settings.Schema
import ExperimentKpi.Text.Blank

namespace ExperimentKpi

/-- Whether a body counts as no body at all. -/
def Json.isVacant : Json → Bool
  | .null => true
  | .obj ms => ms.isEmpty
  | .arr items => items.isEmpty
  | .str s => s.isEmpty
  | _ => false

/-- A name of 5 to 200 characters without blanks. -/
def Definition.HasProperName (d : Definition) : Prop :=
  5 ≤ d.name.length ∧ d.name.length ≤ 200 ∧ d.name.toList.any Text.isBlank = false

instance (d : Definition) : Decidable d.HasProperName := by
  unfold Definition.HasProperName
  infer_instance

namespace Settings

/-- There is a definition, all have proper names, and they are consistent. -/
def IsAcceptable (s : Settings) : Prop :=
  s.definitions ≠ [] ∧ (∀ d ∈ s.definitions, d.HasProperName) ∧ s.IsConsistent

instance (s : Settings) : Decidable s.IsAcceptable := by
  unfold IsAcceptable
  have : Decidable (s.definitions ≠ []) := decidable_of_iff (s.definitions.isEmpty = false) (by simp)
  infer_instance

/-- Nothing for acceptable settings. -/
def check (s : Settings) : Except Failure Unit :=
  if s.IsAcceptable then .ok () else .error .wrongFormat

/-- The messages of a body's violations of the shape, sorted. -/
def shapeMessages (body : Json) : List String :=
  ((settingsShape.violations [] body).map Violation.message).mergeSort (fun a b => decide (a ≤ b))

/-- The settings of a body. -/
def validate (body : Json) : Except Failure Settings :=
  if body.isVacant then .error .emptyBody
  else
    match shapeMessages body with
    | [] =>
      match ofJson? body with
      | some s => s.check.map fun _ => s
      | none => .error .wrongFormat
    | messages => .error (.schema messages)

/-- The settings of a stored text. -/
def revalidate (stored : String) : Except Failure Settings :=
  match ofText? stored with
  | some s => s.check.map fun _ => s
  | none => .error .wrongFormat

end Settings

end ExperimentKpi
