/-
# What accepting a body comes to

A body is accepted as settings exactly if it is not vacant, has no violation, reads as the settings, and
these are acceptable (`Settings.validate_ok_iff`). Stored texts pass the same checks but for the
violations (`Settings.revalidate_ok_iff`).

`namedSettings` are settings with one definition, for queries that show a name.

Key definitions: `namedSettings`, `namedReading`.
Key theorems: `Settings.shapeMessages_eq_nil_iff`, `Settings.validate_ok_iff`,
`Settings.revalidate_ok_iff`.
-/
import ExperimentKpi.Settings.Validate
import Mathlib.Data.List.Sort

namespace ExperimentKpi.Settings

variable {document : Json} {s : Settings}

theorem check_ok_iff : s.check = .ok () ↔ s.IsAcceptable := by
  unfold check
  split <;> simp_all

theorem check_of_not_isAcceptable (h : ¬ s.IsAcceptable) : s.check = .error .wrongFormat := if_neg h

/-- There is a message exactly if there is a violation. -/
theorem shapeMessages_eq_nil_iff :
    shapeMessages document = [] ↔ settingsShape.violations [] document = [] := by
  have hsort : ∀ messages : List String,
      messages.mergeSort (fun a b => decide (a ≤ b)) = [] ↔ messages = [] := by
    intro messages
    rw [← List.length_eq_zero_iff, List.length_mergeSort, List.length_eq_zero_iff]
  rw [shapeMessages, hsort, List.map_eq_nil_iff]

theorem validate_of_isVacant (h : document.isVacant = true) :
    validate document = .error .emptyBody := if_pos h

theorem validate_of_violations (hfull : document.isVacant = false)
    (h : settingsShape.violations [] document ≠ []) :
    validate document = .error (.schema (shapeMessages document)) := by
  have hmessages : shapeMessages document ≠ [] := fun hnil => h (shapeMessages_eq_nil_iff.mp hnil)
  unfold validate
  rw [if_neg (by rw [hfull]; exact Bool.false_ne_true)]
  split
  · exact absurd (by assumption) hmessages
  · rfl

/-- A body without a violation is judged by what it reads as. -/
theorem validate_of_no_violation (hfull : document.isVacant = false)
    (h : settingsShape.violations [] document = []) :
    validate document =
      match ofJson? document with
      | some s => s.check.map fun _ => s
      | none => .error .wrongFormat := by
  have hmessages := shapeMessages_eq_nil_iff.mpr h
  cases hread : ofJson? document <;>
    simp only [validate, hfull, Bool.false_eq_true, if_false, hmessages, hread]

theorem map_check_ok_iff {s' : Settings} :
    (s.check.map fun _ => s) = .ok s' ↔ s = s' ∧ s.IsAcceptable := by
  by_cases h : s.IsAcceptable
  · rw [check_ok_iff.mpr h, Except.map, Except.ok.injEq]
    exact ⟨fun he => ⟨he, h⟩, fun he => he.1⟩
  · rw [check_of_not_isAcceptable h, Except.map]
    exact ⟨nofun, fun he => absurd he.2 h⟩

/-- **A body is accepted exactly if it passes every check.** -/
theorem validate_ok_iff :
    validate document = .ok s ↔ document.isVacant = false ∧
      settingsShape.violations [] document = [] ∧ ofJson? document = some s ∧ s.IsAcceptable := by
  by_cases hvacant : document.isVacant = true
  · rw [validate_of_isVacant hvacant, hvacant]
    exact ⟨nofun, nofun⟩
  · have hfull : document.isVacant = false := by simpa using hvacant
    by_cases hnone : settingsShape.violations [] document = []
    · rw [validate_of_no_violation hfull hnone]
      cases hread : ofJson? document with
      | none => exact ⟨nofun, fun h => nomatch h.2.2.1⟩
      | some s' =>
        rw [map_check_ok_iff, Option.some.injEq]
        constructor
        · rintro ⟨rfl, haccept⟩
          exact ⟨hfull, hnone, rfl, haccept⟩
        · rintro ⟨-, -, rfl, haccept⟩
          exact ⟨rfl, haccept⟩
    · rw [validate_of_violations hfull hnone]
      exact ⟨nofun, fun h => absurd h.2.1 hnone⟩

/-- A stored text is accepted exactly if it reads as acceptable settings. -/
theorem revalidate_ok_iff {text : String} :
    revalidate text = .ok s ↔ ofText? text = some s ∧ s.IsAcceptable := by
  unfold revalidate
  cases hread : ofText? text with
  | none => exact ⟨nofun, fun h => nomatch h.1⟩
  | some s' =>
    rw [map_check_ok_iff, Option.some.injEq]
    constructor
    · rintro ⟨rfl, haccept⟩
      exact ⟨rfl, haccept⟩
    · rintro ⟨rfl, haccept⟩
      exact ⟨rfl, haccept⟩

/-- An accepted body is an object. -/
theorem exists_obj_of_validate (h : validate document = .ok s) : ∃ ms, document = .obj ms := by
  obtain ⟨-, hnone, -⟩ := validate_ok_iff.mp h
  cases document with
  | obj ms => exact ⟨ms, rfl⟩
  | _ => simp [settingsShape, Shape.violations, typeViolation, JsonType.holds] at hnone

end ExperimentKpi.Settings

/-! ### Settings with one definition -/

namespace ExperimentKpi

/-- Settings with one definition. -/
def namedSettings (name : String) : Json :=
  .obj [("based_on", .str "overall"),
    ("kpi_definitions", .arr [.obj [("kpi_definition_name", .str name), ("main_kpi", .bool true)]])]

/-- What `namedSettings` reads as. -/
def namedReading (name : String) : Settings :=
  ⟨.overall, [⟨name, true, none, none, none, [], []⟩]⟩

/-- They are accepted if the name is long enough, short enough and without blanks. -/
theorem validate_named {name : String} (hlong : 5 ≤ name.length) (hshort : name.length ≤ 200)
    (hblank : name.toList.any Text.isBlank = false)
    (hpattern : name.toList.any isPatternBlank = false) :
    Settings.validate (namedSettings name) = .ok (namedReading name) := by
  -- only the name's own shape depends on the name
  have hname : (Shape.word 5 200).violations
      [.key "kpi_definition_name", .item 0, .key "kpi_definitions"] (.str name) = [] := by
    simp only [Shape.violations, typeViolation, JsonType.holds, hpattern, hlong.not_gt,
      hshort.not_gt, Bool.false_eq_true, if_true, if_false, List.append_nil]
  have hnone : settingsShape.violations [] (namedSettings name) = [] :=
    congrArg (fun violations => violations ++ [] ++ [] ++ []) hname
  refine Settings.validate_ok_iff.mpr
    ⟨rfl, hnone, rfl, List.cons_ne_nil _ _, ?_, List.nodup_singleton name, rfl⟩
  exact List.forall_mem_singleton.mpr ⟨hlong, hshort, hblank⟩

end ExperimentKpi
