/-
# Variables of the environment and of files

Variables that are set keep their values when a `.env` file is read (`DotEnv.lookup_load_of_set`), so
the environment goes before the file, and in the file the first line with a variable before later ones
(`DotEnv.exists_line_of_lookup`).

Key theorems: `DotEnv.lookup_loadLines_of_set`, `DotEnv.exists_line_of_lookup`,
`DotEnv.lookup_load_of_set`.
-/
import ExperimentKpi.Config.DotEnv
import Mathlib.Tactic.ByContra

namespace ExperimentKpi.DotEnv

variable {vars : Variables} {key value : String}

/-- A line adds a variable at most, and none that is set. -/
theorem lookup_add_of_set (h : vars.lookup key = some value) (name v : String) :
    (if (vars.lookup name).isSome then vars else (name, v) :: vars).lookup key = some value := by
  by_cases hset : (vars.lookup name).isSome = true
  · rw [if_pos hset, h]
  · have hne : key ≠ name := by
      rintro rfl
      exact hset (h ▸ rfl)
    rw [if_neg hset, List.lookup_cons, beq_false_of_ne hne, h]

/-- Variables that are set keep their values through all lines, also those that a line has set. -/
theorem lookup_loadLines_of_set (h : vars.lookup key = some value)
    (lines : List (Option (List Char))) : (loadLines vars lines).lookup key = some value := by
  fun_induction loadLines vars lines with
  | case1 => exact h
  | case2 => exact h
  | case3 => exact h
  | case4 vars l ls hline ih => exact ih h
  | case5 vars l ls name v hline ih => exact ih (lookup_add_of_set h name v)

/-- A line adds nothing but the variable that it names. -/
theorem eq_of_lookup_add {name v : String} (hnew : vars.lookup key = none)
    (h : (if (vars.lookup name).isSome then vars else (name, v) :: vars).lookup key = some value) :
    name = key ∧ v = value := by
  split at h
  · cases hnew.symm.trans h
  · by_cases hkey : key = name
    · subst hkey
      rw [List.lookup_cons_self] at h
      exact ⟨rfl, Option.some.inj h⟩
    · rw [List.lookup_cons, beq_false_of_ne hkey, hnew] at h
      cases h

/-- A variable that lines add has the value that the first line with it spells, among the variables
before this line. -/
theorem exists_line_of_lookup {lines : List (Option (List Char))} (hnew : vars.lookup key = none)
    (h : (loadLines vars lines).lookup key = some value) :
    ∃ before l after, lines = before ++ some l :: after ∧
      (loadLines vars before).lookup key = none ∧
      line? (loadLines vars before) l = some (some (key, value)) := by
  fun_induction loadLines vars lines with
  | case1 => cases hnew.symm.trans h
  | case2 => cases hnew.symm.trans h
  | case3 => cases hnew.symm.trans h
  | case4 vars l ls hline ih =>
    obtain ⟨before, l', after, rfl, hrest⟩ := ih hnew h
    refine ⟨some l :: before, l', after, rfl, ?_⟩
    rwa [loadLines, hline]
  | case5 vars l ls name v hline ih =>
    by_cases hadded : (if (vars.lookup name).isSome then vars else (name, v) :: vars).lookup key = none
    · obtain ⟨before, l', after, rfl, hrest⟩ := ih hadded h
      refine ⟨some l :: before, l', after, rfl, ?_⟩
      rwa [loadLines, hline]
    · -- This line adds the variable, and later ones keep its value.
      obtain ⟨value', hvalue'⟩ := Option.ne_none_iff_exists'.mp hadded
      obtain ⟨rfl, rfl⟩ := eq_of_lookup_add hnew hvalue'
      rw [lookup_loadLines_of_set hvalue'] at h
      obtain rfl := Option.some.inj h
      exact ⟨[], l, ls, rfl, hnew, hline⟩

/-- **A file of variables changes none that is set.** -/
theorem lookup_load_of_set (h : vars.lookup key = some value) (file : String) :
    (load vars file).lookup key = some value :=
  lookup_loadLines_of_set h _

end ExperimentKpi.DotEnv
