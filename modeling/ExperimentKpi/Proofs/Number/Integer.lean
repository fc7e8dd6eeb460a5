/-
# Integers as binary numbers

The binary64 number of an integer is the integer rounded to 53 significant bits (`units_ofInt`), for
rounding does not look at the unit (`rounded_mul_two_pow`). What has 53 bits is kept (`rounded_exact`), so
a binary64 number that is an integer is its own rounding (`nearest_of_units`), as is every integer below
`2^53`, which no other integer is rounded to (`nearest_eq_iff`). Two binary64 numbers are equal if and only
if their values are (`same_iff`), since the mantissa and the exponent of a value are unique.

Key definitions: `Binary64.units`, `Binary64.nearest`.
Key theorems: `Binary64.rounded_mul_two_pow`, `Binary64.same_iff`, `Binary64.units_ofInt`,
`Binary64.nearest_of_units`, `Binary64.nearest_eq_iff`.
-/
import ExperimentKpi.Proofs.Number.Rounding

namespace ExperimentKpi.Binary64

/-! ### Rounding at any unit -/

theorem roundDiv_mul_right (num den : Nat) {c : Nat} (hc : 0 < c) :
    roundDiv (num * c) (den * c) = roundDiv num den := by
  have hlt : 2 * (num % den * c) < den * c ↔ 2 * (num % den) < den := by
    rw [← Nat.mul_assoc]
    exact Nat.mul_lt_mul_right hc
  have heq : 2 * (num % den * c) = den * c ↔ 2 * (num % den) = den := by
    rw [← Nat.mul_assoc]
    exact Nat.mul_left_inj (Nat.ne_of_gt hc)
  unfold roundDiv
  simp only [Nat.mul_div_mul_right _ _ hc, Nat.mul_mod_mul_right, hlt, heq]

theorem roundDiv_exact (k : Nat) {den : Nat} (hd : 0 < den) : roundDiv (k * den) den = k :=
  Nat.le_antisymm (roundDiv_le hd (Nat.le_refl _)) (le_roundDiv hd (Nat.le_refl _))

theorem log2_mul_two_pow {n : Nat} (hn : n ≠ 0) (k : Nat) :
    Nat.log2 (n * 2 ^ k) = Nat.log2 n + k := by
  induction k with
  | zero => rw [Nat.pow_zero, Nat.mul_one, Nat.add_zero]
  | succ k ih =>
    have hne : n * 2 ^ k ≠ 0 := Nat.mul_ne_zero hn (Nat.two_pow_pos k).ne'
    rw [Nat.pow_succ, ← Nat.mul_assoc, Nat.log2_eq_log_two, Nat.log_mul_base Nat.one_lt_two hne,
      ← Nat.log2_eq_log_two, ih, Nat.add_assoc]

/-- What has 53 bits needs no rounding. -/
theorem rounded_exact {m : Nat} (hm : m < 2 ^ 53) (e : Nat) : rounded (m * 2 ^ e) 1 = m * 2 ^ e := by
  have hexponent : roundedExponent (m * 2 ^ e) 1 ≤ e := by
    unfold roundedExponent
    rw [Nat.div_one]
    by_cases hzero : m = 0
    · rw [hzero, Nat.zero_mul, Nat.log2_zero]
      omega
    · have hlog : Nat.log2 m < 53 := (Nat.log2_lt hzero).mpr hm
      rw [log2_mul_two_pow hzero]
      omega
  unfold rounded
  generalize roundedExponent (m * 2 ^ e) 1 = t at hexponent ⊢
  have hsplit : m * 2 ^ e = m * 2 ^ (e - t) * 2 ^ t := by
    rw [Nat.mul_assoc, ← Nat.pow_add, Nat.sub_add_cancel hexponent]
  rw [Nat.one_mul, hsplit, roundDiv_exact _ (Nat.two_pow_pos t)]

/-- **Rounding does not look at the unit.** -/
theorem rounded_mul_two_pow (n k : Nat) : rounded (n * 2 ^ k) 1 = rounded n 1 * 2 ^ k := by
  rcases Nat.lt_or_ge n (2 ^ 53) with hsmall | hlarge
  · have hexact := rounded_exact hsmall 0
    rw [Nat.pow_zero, Nat.mul_one] at hexact
    rw [rounded_exact hsmall k, hexact]
  · have hne : n ≠ 0 := by omega
    have hlog : 53 ≤ Nat.log2 n := (Nat.le_log2 hne).mpr hlarge
    have hexponent : roundedExponent (n * 2 ^ k) 1 = roundedExponent n 1 + k := by
      unfold roundedExponent
      rw [Nat.div_one, Nat.div_one, log2_mul_two_pow hne]
      omega
    unfold rounded
    rw [hexponent, Nat.pow_add, ← Nat.mul_assoc, ← Nat.mul_assoc,
      roundDiv_mul_right _ _ (Nat.two_pow_pos k)]

/-- An integer is rounded alike whether it is counted in ones or in units. -/
theorem rounded_units (n : Nat) : rounded (n * unitsPerOne) 1 = rounded n 1 * unitsPerOne := by
  obtain ⟨k, hk⟩ : ∃ k, unitsPerOne = 2 ^ k := ⟨1074, by decide +kernel⟩
  rw [hk]
  exact rounded_mul_two_pow n k

/-! ### Values -/

variable {x y : Binary64}

/-- The value in units of `2^-1074`. -/
def units (x : Binary64) : Int :=
  if x.negative then -(x.magnitude : Int) else x.magnitude

theorem natAbs_units (x : Binary64) : x.units.natAbs = x.magnitude := by
  unfold units
  split <;> omega

/-- A number with a smaller exponent is nearer to zero. -/
theorem magnitude_lt_of_exponent_lt (h : x.exponent < y.exponent) : x.magnitude < y.magnitude := by
  have hfull : 2 ^ 52 ≤ y.mantissa := y.canonical.2.1.resolve_left (by omega)
  calc x.magnitude < 2 ^ 53 * 2 ^ x.exponent :=
        Nat.mul_lt_mul_of_pos_right x.canonical.1 (Nat.two_pow_pos _)
    _ = 2 ^ (53 + x.exponent) := (Nat.pow_add ..).symm
    _ ≤ 2 ^ (52 + y.exponent) := Nat.pow_le_pow_right (by omega) (by omega)
    _ = 2 ^ 52 * 2 ^ y.exponent := Nat.pow_add ..
    _ ≤ y.magnitude := Nat.mul_le_mul_right _ hfull

/-- The mantissa and the exponent of a value are unique. -/
theorem eq_of_magnitude_eq (h : x.magnitude = y.magnitude) :
    x.mantissa = y.mantissa ∧ x.exponent = y.exponent := by
  have hexponent : x.exponent = y.exponent := by
    rcases Nat.lt_trichotomy x.exponent y.exponent with hlt | heq | hgt
    · exact absurd h (Nat.ne_of_lt (magnitude_lt_of_exponent_lt hlt))
    · exact heq
    · exact absurd h.symm (Nat.ne_of_lt (magnitude_lt_of_exponent_lt hgt))
  unfold magnitude at h
  rw [hexponent] at h
  exact ⟨Nat.eq_of_mul_eq_mul_right (Nat.two_pow_pos _) h, hexponent⟩

/-- **Numbers are equal if and only if their values are.** -/
theorem same_iff : x.same y = true ↔ x.units = y.units := by
  have hzero : ∀ {x : Binary64}, x.isZero = true ↔ x.magnitude = 0 := by
    intro x
    unfold isZero magnitude
    rw [beq_iff_eq, Nat.mul_eq_zero]
    exact (or_iff_left (Nat.two_pow_pos x.exponent).ne').symm
  unfold same
  rw [Bool.or_eq_true, Bool.and_eq_true, beq_iff_eq, hzero, hzero]
  constructor
  · rintro (rfl | ⟨hx, hy⟩)
    · rfl
    · rw [Int.natAbs_eq_zero.mp ((natAbs_units x).trans hx),
        Int.natAbs_eq_zero.mp ((natAbs_units y).trans hy)]
  · intro h
    have hmagnitude : x.magnitude = y.magnitude := by
      rw [← natAbs_units, ← natAbs_units, h]
    by_cases hx : x.magnitude = 0
    · exact .inr ⟨hx, hmagnitude ▸ hx⟩
    · -- Of two numbers other than zero with one value both or none are negative.
      have hnegative : x.negative = y.negative := by
        unfold units at h
        rw [← hmagnitude] at h
        cases hneg : x.negative <;> cases hneg' : y.negative <;>
          simp only [hneg, hneg', Bool.false_eq_true, if_true, if_false] at h
        · rfl
        · omega
        · omega
        · rfl
      obtain ⟨hmantissa, hexponent⟩ := eq_of_magnitude_eq hmagnitude
      left
      cases x
      cases y
      cases hnegative
      cases hmantissa
      cases hexponent
      rfl

/-! ### Integers -/

/-- An integer rounded to 53 significant bits, a half to the even one. -/
def nearest (z : Int) : Int :=
  z.sign * rounded z.natAbs 1

theorem natAbs_nearest (z : Int) : (nearest z).natAbs = rounded z.natAbs 1 := by
  unfold nearest
  rcases Int.lt_trichotomy z 0 with hneg | rfl | hpos
  · rw [Int.sign_eq_neg_one_of_neg hneg]
    omega
  · rfl
  · rw [Int.sign_eq_one_of_pos hpos]
    omega

/-- An integer whose magnitude is kept is kept. -/
theorem nearest_of_rounded {z : Int} (h : rounded z.natAbs 1 = z.natAbs) : nearest z = z := by
  rw [nearest, h]
  exact Int.sign_mul_natAbs z

theorem negative_of_ofRatio? {negative : Bool} {num den : Nat}
    (h : ofRatio? negative num den = some x) : x.negative = negative := by
  have hfields : ∀ {mantissa exponent : Nat},
      ofFields? negative mantissa exponent = some x → x.negative = negative := by
    intro mantissa exponent hx
    unfold ofFields? at hx
    split at hx
    · cases hx
      rfl
    · cases hx
  rw [ofRatio?_eq] at h
  simp only at h
  split at h
  · exact hfields h
  · exact hfields h

/-- **The binary number of an integer is the integer rounded.** -/
theorem units_ofInt {z : Int} (h : z.natAbs * unitsPerOne < overflow) :
    (ofInt z).units = nearest z * unitsPerOne := by
  obtain ⟨x, hx⟩ := exists_ofRatio? (decide (z < 0)) Nat.one_pos ((Nat.mul_one overflow).symm ▸ h)
  have hmagnitude : x.magnitude = rounded z.natAbs 1 * unitsPerOne :=
    (magnitude_of_ofRatio? hx).trans (rounded_units _)
  rw [ofInt, hx, Option.getD_some, units, negative_of_ofRatio? hx, hmagnitude, nearest,
    Int.natCast_mul]
  generalize (unitsPerOne : Int) = u
  rcases Int.lt_trichotomy z 0 with hneg | rfl | hpos
  · rw [if_pos (decide_eq_true hneg), Int.sign_eq_neg_one_of_neg hneg]
    ring
  · rfl
  · rw [if_neg (by simp; omega), Int.sign_eq_one_of_pos hpos]
    ring

/-- A binary number that is an integer is its own rounding. -/
theorem nearest_of_units {z : Int} (h : x.units = z * unitsPerOne) : nearest z = z := by
  have hmagnitude : z.natAbs * unitsPerOne = x.magnitude := by
    rw [← natAbs_units, h, Int.natAbs_mul, Int.natAbs_natCast]
  refine nearest_of_rounded (Nat.eq_of_mul_eq_mul_right unitsPerOne_pos ?_)
  calc
    rounded z.natAbs 1 * unitsPerOne
    _ = rounded (z.natAbs * unitsPerOne) 1 := (rounded_units _).symm
    _ = rounded x.magnitude 1 := by rw [hmagnitude]
    _ = x.magnitude := rounded_exact x.canonical.1 _
    _ = z.natAbs * unitsPerOne := hmagnitude.symm

theorem nearest_of_lt {z : Int} (h : z.natAbs < 2 ^ 53) : nearest z = z := by
  have hexact := rounded_exact h 0
  rw [Nat.pow_zero, Nat.mul_one] at hexact
  exact nearest_of_rounded hexact

/-- **An integer below `2^53` is no other integer rounded.** -/
theorem nearest_eq_iff {a b : Int} (h : a.natAbs < 2 ^ 53) : nearest a = nearest b ↔ a = b := by
  constructor
  · intro heq
    have hb : b.natAbs < 2 ^ 53 := by
      by_contra hlarge
      have hpow : rounded (2 ^ 53) 1 = 2 ^ 53 := by
        simpa using rounded_exact (m := 1) (by decide) 53
      have hle : 2 ^ 53 ≤ rounded b.natAbs 1 := by
        rw [← hpow]
        exact rounded_mono Nat.one_pos (Nat.not_lt.mp hlarge)
      rw [← natAbs_nearest, ← heq, nearest_of_lt h] at hle
      omega
    rwa [nearest_of_lt h, nearest_of_lt hb] at heq
  · rintro rfl
    rfl

end ExperimentKpi.Binary64
