/-
# Steps in a row

A row of steps succeeds exactly if each of them does, one on the result of the other, and it fails
exactly with the first of them that fails.

Key theorems: `bind_ok_iff`, `bind_error_iff`, `map_error_iff`, `mapError_error_iff`.
-/
namespace ExperimentKpi

variable {ε α β : Type} {x : Except ε α} {f : α → Except ε β}

theorem bind_of_ok {a : α} (h : x = .ok a) (f : α → Except ε β) : x >>= f = f a := by
  rw [h]
  rfl

theorem bind_of_error {e : ε} (h : x = .error e) (f : α → Except ε β) : x >>= f = .error e := by
  rw [h]
  rfl

theorem bind_ok_iff {b : β} : x >>= f = .ok b ↔ ∃ a, x = .ok a ∧ f a = .ok b := by
  cases x with
  | error e => exact ⟨nofun, nofun⟩
  | ok a => exact ⟨fun h => ⟨a, rfl, h⟩, fun ⟨_, h, hb⟩ => Except.ok.inj h ▸ hb⟩

theorem bind_error_iff {e : ε} :
    x >>= f = .error e ↔ x = .error e ∨ ∃ a, x = .ok a ∧ f a = .error e := by
  cases x with
  | error e' =>
    refine ⟨fun h => .inl ?_, fun h => ?_⟩
    · cases h
      rfl
    · obtain h | ⟨a, h, -⟩ := h
      · cases h
        rfl
      · cases h
  | ok a =>
    refine ⟨fun h => .inr ⟨a, rfl, h⟩, fun h => ?_⟩
    obtain h | ⟨a', h, hf⟩ := h
    · cases h
    · cases h
      exact hf

/-- What a result is made into fails as the result does. -/
theorem map_error_iff {g : α → β} {e : ε} : x.map g = .error e ↔ x = .error e := by
  cases x <;> simp [Except.map]

theorem mapError_error_iff {δ : Type} {g : ε → δ} {e : δ} :
    x.mapError g = .error e ↔ ∃ e', x = .error e' ∧ e = g e' := by
  cases x with
  | error e' =>
    constructor
    · rintro ⟨⟩
      exact ⟨e', rfl, rfl⟩
    · rintro ⟨_, ⟨⟩, rfl⟩
      rfl
  | ok a => exact ⟨nofun, nofun⟩

theorem map_map_except {γ : Type} (g : α → β) (h : β → γ) (x : Except ε α) :
    (x.map g).map h = x.map (h ∘ g) := by
  cases x <;> rfl

end ExperimentKpi
