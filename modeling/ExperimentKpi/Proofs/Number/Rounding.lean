/-
# Rounding to binary numbers

A quotient is rounded to a number whose magnitude does not fall when the quotient grows (`rounded_mono`),
and there is such a number as long as the quotient lies below half a last place beyond the largest finite
number (`exists_ofRatio?`). So products and quotients of numbers that are known to be small exist
(`exists_mul?`, `exists_div?`).

Key definitions: `Binary64.rounded`, `Binary64.overflow`.
Key theorems: `Binary64.rounded_mono`, `Binary64.exists_ofRatio?`, `Binary64.magnitude_of_ofRatio?`.
-/
import ExperimentKpi.Number.Binary64
import Mathlib.Data.Nat.Log
import Mathlib.Tactic.Ring

namespace ExperimentKpi.Binary64

variable {num den s t : Nat}

/-! ### Rounding to an integer -/

theorem roundDiv_le (hd : 0 < den) {k : Nat} (h : num ≤ k * den) : roundDiv num den ≤ k := by
  have hdiv := Nat.div_add_mod num den
  have hmod := Nat.mod_lt num hd
  unfold roundDiv
  simp only
  rcases Nat.lt_or_ge (num / den) k with hlt | hge
  · split_ifs <;> omega
  · have hk : num / den ≤ k := Nat.div_le_of_le_mul (by rwa [Nat.mul_comm])
    have heq : num / den = k := Nat.le_antisymm hk hge
    rw [heq, Nat.mul_comm] at hdiv
    have hzero : num % den = 0 := by omega
    rw [hzero, heq, if_pos (by omega)]

/-- A quotient less than a half below an integer is rounded to a smaller one. -/
theorem roundDiv_lt {k : Nat} (h : 2 * num < (2 * k - 1) * den) : roundDiv num den < k := by
  have hdiv := Nat.div_add_mod num den
  have hk : 0 < k := Nat.pos_of_ne_zero (by rintro rfl; omega)
  have hd : 0 < den := Nat.pos_of_ne_zero (by rintro rfl; omega)
  have hquot : num / den < k := by
    rw [Nat.div_lt_iff_lt_mul hd]
    have hle : (2 * k - 1) * den ≤ 2 * k * den := Nat.mul_le_mul_right _ (by omega)
    rw [Nat.mul_assoc] at hle
    omega
  unfold roundDiv
  simp only
  rcases Nat.lt_or_ge (num / den + 1) k with hlt | hge
  · split_ifs <;> omega
  · have heq : k = num / den + 1 := by omega
    have hodd : (2 * k - 1) * den = 2 * (den * (num / den)) + den := by
      rw [heq, show 2 * (num / den + 1) - 1 = 2 * (num / den) + 1 by omega]
      ring
    rw [if_pos (by omega)]
    omega

theorem le_roundDiv (hd : 0 < den) {k : Nat} (h : k * den ≤ num) : k ≤ roundDiv num den := by
  have hk : k ≤ num / den := (Nat.le_div_iff_mul_le hd).mpr h
  unfold roundDiv
  simp only
  split_ifs <;> omega

theorem roundDiv_mono (h : s ≤ t) : roundDiv s den ≤ roundDiv t den := by
  have hs := Nat.div_add_mod s den
  have ht := Nat.div_add_mod t den
  have hq : s / den ≤ t / den := Nat.div_le_div_right h
  unfold roundDiv
  simp only
  rcases Nat.lt_or_ge (s / den) (t / den) with hlt | hge
  · split_ifs <;> omega
  · have heq : s / den = t / den := Nat.le_antisymm hq hge
    rw [heq] at hs ⊢
    split_ifs <;> omega

/-! ### Rounding to 53 bits -/

/-- The exponent of the number nearest to a quotient. -/
def roundedExponent (s den : Nat) : Nat :=
  Nat.log2 (s / den) - 52

/-- The magnitude of the number nearest to a quotient of units. -/
def rounded (s den : Nat) : Nat :=
  roundDiv s (den * 2 ^ roundedExponent s den) * 2 ^ roundedExponent s den

theorem lt_of_roundedExponent (hd : 0 < den) : s < 2 ^ (53 + roundedExponent s den) * den := by
  have hlog : s / den < 2 ^ (Nat.log2 (s / den) + 1) := Nat.lt_log2_self
  have hpow : 2 ^ (Nat.log2 (s / den) + 1) ≤ 2 ^ (53 + roundedExponent s den) :=
    Nat.pow_le_pow_right (by omega) (by unfold roundedExponent; omega)
  exact (Nat.div_lt_iff_lt_mul hd).mp (Nat.lt_of_lt_of_le hlog hpow)

theorem le_of_roundedExponent (hd : 0 < den) (he : 0 < roundedExponent s den) :
    2 ^ (52 + roundedExponent s den) * den ≤ s := by
  unfold roundedExponent at he ⊢
  have hne : s / den ≠ 0 := by
    intro h
    rw [h, Nat.log2_zero] at he
    omega
  have hlog : 2 ^ Nat.log2 (s / den) ≤ s / den := Nat.log2_self_le hne
  have heq : 52 + (Nat.log2 (s / den) - 52) = Nat.log2 (s / den) := by omega
  rw [heq]
  exact (Nat.le_div_iff_mul_le hd).mp hlog

theorem roundedExponent_mono (h : s ≤ t) : roundedExponent s den ≤ roundedExponent t den := by
  have hlog : Nat.log2 (s / den) ≤ Nat.log2 (t / den) := by
    rw [Nat.log2_eq_log_two, Nat.log2_eq_log_two]
    exact Nat.log_mono_right (Nat.div_le_div_right h)
  unfold roundedExponent
  omega

theorem mantissa_le (hd : 0 < den) :
    roundDiv s (den * 2 ^ roundedExponent s den) ≤ 2 ^ 53 := by
  have hpos : 0 < 2 ^ roundedExponent s den := Nat.two_pow_pos _
  refine roundDiv_le (Nat.mul_pos hd hpos) (Nat.le_of_lt ?_)
  have h := lt_of_roundedExponent (s := s) hd
  rwa [Nat.pow_add, Nat.mul_assoc, Nat.mul_comm _ den] at h

theorem le_mantissa (hd : 0 < den) (he : 0 < roundedExponent s den) :
    2 ^ 52 ≤ roundDiv s (den * 2 ^ roundedExponent s den) := by
  have hpos : 0 < 2 ^ roundedExponent s den := Nat.two_pow_pos _
  refine le_roundDiv (Nat.mul_pos hd hpos) ?_
  have h := le_of_roundedExponent hd he
  rwa [Nat.pow_add, Nat.mul_assoc, Nat.mul_comm _ den] at h

/-- **Rounding is monotone.** -/
theorem rounded_mono (hd : 0 < den) (h : s ≤ t) : rounded s den ≤ rounded t den := by
  rcases Nat.lt_or_ge (roundedExponent s den) (roundedExponent t den) with hlt | hge
  · calc rounded s den ≤ 2 ^ 53 * 2 ^ roundedExponent s den :=
          Nat.mul_le_mul_right _ (mantissa_le hd)
      _ = 2 ^ (53 + roundedExponent s den) := (Nat.pow_add ..).symm
      _ ≤ 2 ^ (52 + roundedExponent t den) := Nat.pow_le_pow_right (by omega) (by omega)
      _ = 2 ^ 52 * 2 ^ roundedExponent t den := Nat.pow_add ..
      _ ≤ rounded t den := Nat.mul_le_mul_right _ (le_mantissa hd (by omega))
  · have heq : roundedExponent s den = roundedExponent t den :=
      Nat.le_antisymm (roundedExponent_mono h) hge
    rw [rounded, rounded, heq]
    exact Nat.mul_le_mul_right _ (roundDiv_mono h)

/-! ### Quotients that have a number -/

/-- The power of two that half a last place of the largest finite number is. -/
def halfPlace : Nat := 2044

/-- Half a last place beyond the largest finite number, in units: quotients round to nothing from here
on. -/
def overflow : Nat :=
  (4 * leastFull - 1) * 2 ^ halfPlace

theorem ofRatio?_eq (negative : Bool) (num den : Nat) :
    ofRatio? negative num den =
      let exponent := roundedExponent (num * unitsPerOne) den
      let mantissa := roundDiv (num * unitsPerOne) (den * 2 ^ exponent)
      if mantissa = 2 ^ 53 then ofFields? negative (2 ^ 52) (exponent + 1)
      else ofFields? negative mantissa exponent := rfl

theorem exists_ofFields? {negative : Bool} {mantissa exponent : Nat} (hm : mantissa < 2 ^ 53)
    (hfull : exponent = 0 ∨ 2 ^ 52 ≤ mantissa) (he : exponent ≤ 2045) :
    ∃ x, ofFields? negative mantissa exponent = some x :=
  ⟨_, dif_pos ⟨hm, hfull, he⟩⟩

theorem magnitude_of_ofFields? {negative : Bool} {mantissa exponent : Nat} {x : Binary64}
    (h : ofFields? negative mantissa exponent = some x) : x.magnitude = mantissa * 2 ^ exponent := by
  unfold ofFields? at h
  split at h
  · cases h
    rfl
  · cases h

/-- **A quotient below the overflow rounds to a number.** -/
theorem exists_ofRatio? (negative : Bool) (hd : 0 < den)
    (h : num * unitsPerOne < overflow * den) : ∃ x, ofRatio? negative num den = some x := by
  rw [ofRatio?_eq]
  generalize num * unitsPerOne = s at h
  have hplace : halfPlace = 2044 := rfl
  have hle : roundDiv s (den * 2 ^ roundedExponent s den) ≤ 2 ^ 53 := mantissa_le hd
  have hfull : roundedExponent s den = 0 ∨ 2 ^ 52 ≤ roundDiv s (den * 2 ^ roundedExponent s den) :=
    (Nat.eq_zero_or_pos _).imp_right (le_mantissa hd)
  have hexponent : roundedExponent s den ≤ 2045 := by
    by_contra hlarge
    have hs := le_of_roundedExponent (s := s) hd (by omega)
    have hodd : ∀ k, (4 * leastFull - 1) * 2 ^ k ≤ 2 ^ (54 + k) := fun k => by
      rw [Nat.pow_add]
      exact Nat.mul_le_mul_right _ (by decide)
    have hpow : overflow ≤ 2 ^ (52 + roundedExponent s den) :=
      (hodd halfPlace).trans (Nat.pow_le_pow_right (by omega) (by omega))
    exact absurd (Nat.lt_of_lt_of_le h (Nat.mul_le_mul_right _ hpow)) (Nat.not_lt.mpr hs)
  simp only
  split_ifs with hcarry
  · refine exists_ofFields? (by decide) (.inr (Nat.le_refl _)) ?_
    by_contra hlarge
    have heq : roundedExponent s den = halfPlace + 1 := by omega
    have hlt : roundDiv s (den * 2 ^ roundedExponent s den) < 2 ^ 53 := by
      refine roundDiv_lt ?_
      have hoverflow : (2 * 2 ^ 53 - 1) * (den * 2 ^ (halfPlace + 1)) = 2 * (overflow * den) := by
        have hodd : 4 * leastFull - 1 = 2 * 2 ^ 53 - 1 := rfl
        rw [overflow, hodd, pow_succ' 2 halfPlace]
        generalize 2 ^ halfPlace = place
        ring
      rw [heq, hoverflow]
      exact Nat.mul_lt_mul_of_pos_left h (by decide)
    omega
  · exact exists_ofFields? (by omega) hfull hexponent

/-- The magnitude of the number nearest to a quotient is the quotient rounded. -/
theorem magnitude_of_ofRatio? {negative : Bool} {x : Binary64}
    (h : ofRatio? negative num den = some x) :
    x.magnitude = rounded (num * unitsPerOne) den := by
  rw [ofRatio?_eq] at h
  simp only at h
  split_ifs at h with hcarry
  · rw [magnitude_of_ofFields? h, rounded, hcarry, Nat.pow_succ]
    ring
  · exact magnitude_of_ofFields? h

/-! ### Products and quotients -/

variable {x y : Binary64}

theorem unitsPerOne_pos : 0 < unitsPerOne := by decide +kernel

theorem magnitude_lt_overflow (x : Binary64) : x.magnitude < overflow := by
  obtain ⟨negative, mantissa, exponent, hm, -, he⟩ := x
  have hplace : halfPlace = 2044 := rfl
  calc mantissa * 2 ^ exponent ≤ mantissa * 2 ^ (halfPlace + 1) :=
        Nat.mul_le_mul_left _ (Nat.pow_le_pow_right (by omega) (by omega))
    _ = (2 * mantissa) * 2 ^ halfPlace := by rw [pow_succ' 2 halfPlace]; ring
    _ < overflow := Nat.mul_lt_mul_of_pos_right (by omega) (Nat.two_pow_pos _)

theorem exists_mul? (h : x.magnitude * y.magnitude < overflow * unitsPerOne) :
    ∃ z, x.mul? y = some z := by
  have hunits := Nat.mul_pos unitsPerOne_pos unitsPerOne_pos
  refine exists_ofRatio? _ hunits ?_
  rw [← Nat.mul_assoc]
  exact Nat.mul_lt_mul_of_pos_right h unitsPerOne_pos

/-- There is a quotient by every number from one on. -/
theorem exists_div? (h : unitsPerOne ≤ y.magnitude) : ∃ z, x.div? y = some z := by
  have hy : 0 < y.magnitude := Nat.lt_of_lt_of_le unitsPerOne_pos h
  refine exists_ofRatio? _ hy ?_
  calc x.magnitude * unitsPerOne ≤ x.magnitude * y.magnitude := Nat.mul_le_mul_left _ h
    _ < overflow * y.magnitude := Nat.mul_lt_mul_of_pos_right (magnitude_lt_overflow x) hy

end ExperimentKpi.Binary64
