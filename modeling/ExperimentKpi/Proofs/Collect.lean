/-
# What is collected

Collecting succeeds exactly if it succeeds at every element (`exists_collect_ok_iff`), the lists of the
elements are then put in a row (`collect_ok_iff`), so that it can be cut anywhere
(`collect_append_ok_iff`), and a failure of the whole is one of some element
(`exists_of_collect_error`).

Key theorems: `collect_ok_iff`, `exists_collect_ok_iff`, `collect_append_ok_iff`,
`exists_of_collect_error`.
-/
import ExperimentKpi.Collect
import Mathlib.Data.List.Forall2

namespace ExperimentKpi

variable {α β ε : Type} {f : α → Except ε (List β)}

theorem collect_cons_ok_iff {x : α} {xs : List α} {ys : List β} :
    collect f (x :: xs) = .ok ys ↔
      ∃ here after, f x = .ok here ∧ collect f xs = .ok after ∧ ys = here ++ after := by
  rw [collect]
  cases hx : f x with
  | error e => exact ⟨nofun, nofun⟩
  | ok here =>
    cases hxs : collect f xs with
    | error e => exact ⟨nofun, nofun⟩
    | ok after =>
      constructor
      · intro h
        exact ⟨here, after, rfl, rfl, (Except.ok.inj h).symm⟩
      · rintro ⟨here', after', hhere, hafter, rfl⟩
        cases hhere
        cases hafter
        rfl

/-- What is collected are the lists of the elements, one after the other. -/
theorem collect_ok_iff {xs : List α} {ys : List β} :
    collect f xs = .ok ys ↔
      ∃ parts, List.Forall₂ (fun x part => f x = .ok part) xs parts ∧ ys = parts.flatten := by
  induction xs generalizing ys with
  | nil =>
    constructor
    · intro h
      exact ⟨[], .nil, (Except.ok.inj h).symm⟩
    · rintro ⟨parts, hparts, rfl⟩
      cases hparts
      rfl
  | cons x xs ih =>
    rw [collect_cons_ok_iff]
    constructor
    · rintro ⟨here, after, hx, hxs, rfl⟩
      obtain ⟨parts, hparts, rfl⟩ := ih.mp hxs
      exact ⟨here :: parts, .cons hx hparts, rfl⟩
    · rintro ⟨parts, hparts, rfl⟩
      cases hparts with
      | cons hx hrest => exact ⟨_, _, hx, ih.mpr ⟨_, hrest, rfl⟩, rfl⟩

theorem exists_collect_ok_iff {xs : List α} :
    (∃ ys, collect f xs = .ok ys) ↔ ∀ x ∈ xs, ∃ part, f x = .ok part := by
  induction xs with
  | nil => exact ⟨fun _ => nofun, fun _ => ⟨[], rfl⟩⟩
  | cons x xs ih =>
    rw [List.forall_mem_cons, ← ih]
    constructor
    · rintro ⟨ys, h⟩
      obtain ⟨here, after, hx, hxs, -⟩ := collect_cons_ok_iff.mp h
      exact ⟨⟨here, hx⟩, after, hxs⟩
    · rintro ⟨⟨here, hx⟩, after, hxs⟩
      exact ⟨_, collect_cons_ok_iff.mpr ⟨here, after, hx, hxs, rfl⟩⟩

/-- What is collected from two lists in a row is what is collected from each. -/
theorem collect_append_ok_iff {xs xs' : List α} {ys : List β} :
    collect f (xs ++ xs') = .ok ys ↔
      ∃ before after, collect f xs = .ok before ∧ collect f xs' = .ok after ∧
        ys = before ++ after := by
  induction xs generalizing ys with
  | nil =>
    constructor
    · intro h
      exact ⟨[], ys, rfl, h, rfl⟩
    · rintro ⟨before, after, hbefore, hafter, rfl⟩
      cases hbefore
      exact hafter
  | cons x xs ih =>
    simp only [List.cons_append, collect_cons_ok_iff, ih]
    constructor
    · rintro ⟨here, _, hx, ⟨before, after, hbefore, hafter, rfl⟩, rfl⟩
      exact ⟨here ++ before, after, ⟨here, before, hx, hbefore, rfl⟩, hafter,
        (List.append_assoc _ _ _).symm⟩
    · rintro ⟨_, after, ⟨here, before, hx, hbefore, rfl⟩, hafter, rfl⟩
      exact ⟨here, before ++ after, hx, ⟨before, after, hbefore, hafter, rfl⟩,
        List.append_assoc _ _ _⟩

/-- What is collected is what some element gives. -/
theorem mem_collect_iff {xs : List α} {ys : List β} {y : β} (h : collect f xs = .ok ys) :
    y ∈ ys ↔ ∃ x ∈ xs, ∃ part, f x = .ok part ∧ y ∈ part := by
  induction xs generalizing ys with
  | nil =>
    cases h
    exact ⟨nofun, fun ⟨_, hx, _⟩ => absurd hx List.not_mem_nil⟩
  | cons x xs ih =>
    obtain ⟨here, after, hx, hxs, rfl⟩ := collect_cons_ok_iff.mp h
    rw [List.mem_append, ih hxs, List.exists_mem_cons_iff]
    have hhere : (∃ part, f x = .ok part ∧ y ∈ part) ↔ y ∈ here := by
      constructor
      · rintro ⟨part, hpart, hy⟩
        obtain rfl := Except.ok.inj (hx.symm.trans hpart)
        exact hy
      · exact fun hy => ⟨here, hx, hy⟩
    rw [hhere]

theorem exists_of_collect_error {xs : List α} {e : ε} (h : collect f xs = .error e) :
    ∃ x ∈ xs, f x = .error e := by
  induction xs with
  | nil => cases h
  | cons x xs ih =>
    rw [collect] at h
    cases hx : f x with
    | error e' =>
      rw [hx] at h
      cases h
      exact ⟨x, List.mem_cons_self, hx⟩
    | ok here =>
      rw [hx] at h
      cases hxs : collect f xs with
      | error e' =>
        rw [hxs] at h
        cases h
        obtain ⟨y, hy, hfy⟩ := ih hxs
        exact ⟨y, List.mem_cons_of_mem x hy, hfy⟩
      | ok after =>
        rw [hxs] at h
        cases h

end ExperimentKpi
