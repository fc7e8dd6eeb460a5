/-
# The order of rows

Rows arrive in any order and are put in that of their ids. Where ids are keys this is one order only
(`eq_of_perm_of_pairwise`), so a design is decided by which rows there are (`Orders.unique`): neither
its patterns, nor which of several failures is met first, nor what names stand for, nor the ids that
settings get, depend on the order in which the rows came (`assignPatternIds_perm`).

Key theorems: `Design.eq_of_perm_of_pairwise`, `Design.Orders.unique`,
`Design.assignPatternIds_perm`.
-/
import ExperimentKpi.Proofs.Design.Nesting
import ExperimentKpi.Settings.PatternId
import Mathlib.Data.Int.Order.Basic

namespace ExperimentKpi.Design

section

variable {α : Type} {key : α → Int} {xs ys : List α}

/-- Rows in the order of a key have it in ascending order. -/
theorem pairwise_lt_of_nodup (hle : xs.Pairwise fun a b => key a ≤ key b)
    (hnodup : (xs.map key).Nodup) : xs.Pairwise fun a b => key a < key b := by
  have hne : xs.Pairwise fun a b => key a ≠ key b := List.pairwise_map.mp hnodup
  exact hle.imp₂ (fun _ _ hab hne => lt_of_le_of_ne hab hne) hne

/-- Rows have one order by a key. -/
theorem eq_of_perm_of_pairwise (h : xs.Perm ys) (hnodup : (xs.map key).Nodup)
    (hxs : xs.Pairwise fun a b => key a ≤ key b) (hys : ys.Pairwise fun a b => key a ≤ key b) :
    xs = ys := by
  have hantisymm : ∀ a b, a ∈ xs → b ∈ ys → key a ≤ key b → key b ≤ key a → a = b := by
    intro a b ha hb hab hba
    exact List.inj_on_of_nodup_map hnodup ha (h.mem_iff.mpr hb) (le_antisymm hab hba)
  exact List.Perm.eq_of_pairwise hantisymm hxs hys h

end

variable {d e : Design} {variations variations' : List Variation}
  {conditions conditions' : List Condition}

namespace Orders

theorem nodup_variations (h : d.Orders variations conditions)
    (hids : (variations.map (·.id)).Nodup) : (d.variations.map (·.id)).Nodup :=
  ((h.variations.map _).nodup_iff).mpr hids

theorem nodup_conditions (h : d.Orders variations conditions)
    (hids : (conditions.map (·.id)).Nodup) : (d.conditions.map (·.id)).Nodup :=
  ((h.conditions.map _).nodup_iff).mpr hids

/-- Designs of the same rows are the same, if ids are keys. -/
theorem unique (hd : d.Orders variations conditions) (he : e.Orders variations' conditions')
    (hids : (variations.map (·.id)).Nodup) (hconditions : (conditions.map (·.id)).Nodup)
    (hvariations' : variations.Perm variations') (hconditions' : conditions.Perm conditions') :
    d = e := by
  have hv : d.variations = e.variations := by
    have hperm := hd.variations.trans (hvariations'.trans he.variations.symm)
    exact eq_of_perm_of_pairwise hperm (hd.nodup_variations hids) hd.variationIds he.variationIds
  have hc : d.conditions = e.conditions := by
    have hperm := hd.conditions.trans (hconditions'.trans he.conditions.symm)
    exact eq_of_perm_of_pairwise hperm (hd.nodup_conditions hconditions) hd.conditionIds
      he.conditionIds
  cases d
  cases e
  rw [Design.mk.injEq]
  exact ⟨hv, hc⟩

end Orders

/-- **The order of rows decides nothing.** With the rows in another order the patterns or the failure
are the same, names stand for the same and settings get the same ids. -/
theorem assignPatternIds_perm (hids : (variations.map (·.id)).Nodup)
    (hconditions : (conditions.map (·.id)).Nodup) (hvariations' : variations.Perm variations')
    (hconditions' : conditions.Perm conditions') :
    (ofRows variations conditions).patterns = (ofRows variations' conditions').patterns ∧
      (∀ name, (ofRows variations conditions).resolve name =
        (ofRows variations' conditions').resolve name) ∧
      ∀ models document, assignPatternIds (ofRows variations conditions) models document =
        assignPatternIds (ofRows variations' conditions') models document := by
  have hsame : ofRows variations conditions = ofRows variations' conditions' :=
    (orders_ofRows variations conditions).unique (orders_ofRows variations' conditions') hids
      hconditions hvariations' hconditions'
  rw [hsame]
  exact ⟨rfl, fun _ => rfl, fun _ _ => rfl⟩

/-- The rows of `sharedVariations` and `sharedConditions`, the last ones first. -/
theorem assignPatternIds_perm_reversed :
    (sharedVariations.map (·.id)).Nodup ∧ (sharedConditions.map (·.id)).Nodup ∧
      sharedVariations.Perm sharedVariations.reverse ∧
      sharedConditions.Perm sharedConditions.reverse ∧
      (ofRows sharedVariations sharedConditions).patterns =
        (ofRows sharedVariations.reverse sharedConditions.reverse).patterns := by
  have hids : (sharedVariations.map (·.id)).Nodup := by decide
  have hconditions : (sharedConditions.map (·.id)).Nodup := by decide
  have hv := (List.reverse_perm sharedVariations).symm
  have hc := (List.reverse_perm sharedConditions).symm
  exact ⟨hids, hconditions, hv, hc, (assignPatternIds_perm hids hconditions hv hc).1⟩

end ExperimentKpi.Design
