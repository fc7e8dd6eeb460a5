/-
# Shortest decimals that are numbers

The shortest decimal of a number lies in the number's interval, so its digits fit 64 bits and, unless the
number is the largest one, it does not lie beyond the second largest finite number and half a last place
(`isSmall_shortest`). So its digits times its power of ten are a number again (`exists_scale?_shortest`).

Key definition: `Decimal.IsSmall`.
Key theorems: `Binary64.isSmall_shortest`, `Binary64.exists_scale?_shortest`.
-/
import ExperimentKpi.Number.Shortest
import ExperimentKpi.Proofs.Number.Literal

namespace ExperimentKpi

open Number (maxWord belowLargest unitsOf)

namespace Decimal

/-- The value is not zero, has digits of 64 bits and does not exceed half a last place beyond the second
largest finite number. -/
structure IsSmall (d : Decimal) : Prop where
  pos : 0 < d.digits
  fits : d.digits ≤ maxWord
  below : d.digits * unitsOf (Nat.pow 10 d.exponent.toNat) ≤
    belowLargest * Nat.pow 10 (-d.exponent).toNat

theorem lt_pow_digitCount (n : Nat) : n < Nat.pow 10 (digitCount n) :=
  (Nat.length_toDigits_le_iff (by decide) Nat.length_toDigits_pos).mp (Nat.le_refl _)

theorem unitsOf_pow_succ (k : Nat) : unitsOf (Nat.pow 10 (k + 1)) = 10 * unitsOf (Nat.pow 10 k) := by
  have hpow : Nat.pow 10 (k + 1) = 10 * Nat.pow 10 k := Nat.pow_succ'
  rw [hpow, unitsOf, unitsOf, Nat.mul_assoc]

variable {d : Decimal}

theorem IsSmall.strip (h : d.IsSmall) (hzero : d.digits % 10 = 0) :
    IsSmall ⟨d.digits / 10, d.exponent + 1⟩ := by
  obtain ⟨n, exponent⟩ := d
  obtain ⟨hpos, hfits, hbelow⟩ := h
  simp only at hpos hfits hbelow hzero ⊢
  obtain ⟨q, rfl⟩ : ∃ q, n = 10 * q := Nat.dvd_of_mod_eq_zero hzero
  have hq : 10 * q / 10 = q := by omega
  refine ⟨by simp only; omega, by simp only; omega, ?_⟩
  simp only [hq]
  rcases Int.lt_or_le exponent 0 with hneg | hnonneg
  · obtain ⟨j, hj⟩ : ∃ j : Nat, (-exponent).toNat = j + 1 ∧ (-(exponent + 1)).toNat = j ∧
        exponent.toNat = 0 ∧ (exponent + 1).toNat = 0 := ⟨(-(exponent + 1)).toNat, by omega⟩
    have hpow : Nat.pow 10 (j + 1) = 10 * Nat.pow 10 j := Nat.pow_succ'
    rw [hj.1, hj.2.2.1, hpow] at hbelow
    rw [hj.2.1, hj.2.2.2]
    have hscaled : 10 * (q * unitsOf (Nat.pow 10 0)) ≤ 10 * (belowLargest * Nat.pow 10 j) := by
      rwa [Nat.mul_left_comm 10 belowLargest, ← Nat.mul_assoc 10 q]
    exact Nat.le_of_mul_le_mul_left hscaled (by decide)
  · have hexponent : (exponent + 1).toNat = exponent.toNat + 1 ∧ (-exponent).toNat = 0 ∧
        (-(exponent + 1)).toNat = 0 := by omega
    rw [hexponent.2.1] at hbelow
    rw [hexponent.1, hexponent.2.2, unitsOf_pow_succ, Nat.mul_left_comm, ← Nat.mul_assoc]
    exact hbelow

theorem IsSmall.stripZeros : ∀ (fuel : Nat) {d : Decimal}, d.IsSmall → (stripZeros fuel d).IsSmall
  | 0, _, h => h
  | fuel + 1, d, h => by
    rw [Decimal.stripZeros]
    split_ifs with hzero
    · exact stripZeros fuel (h.strip hzero.2)
    · exact h

theorem IsSmall.normal (h : d.IsSmall) : d.normal.IsSmall :=
  h.stripZeros _

end Decimal

namespace Number

theorem mul_power_of_eq_zero (n : Nat) {k : Nat} (h : k = 0) : n * Nat.pow 10 k = n := by
  rw [h]
  exact Nat.mul_one n

theorem belowLargest_lt {k : Nat} (h : 309 ≤ k) : belowLargest < unitsOf (Nat.pow 10 k) := by
  have hfirst : ∀ j < 310, 309 ≤ j → belowLargest < unitsOf (Nat.pow 10 j) := by decide +kernel
  obtain ⟨j, hj⟩ : ∃ j, j = 309 := ⟨_, rfl⟩
  exact (hfirst j (by omega) (by omega)).trans_le (unitsOf_mono (power_mono (by omega)))

/-- **A small decimal is a number.** -/
theorem exists_scale?_of_isSmall {d : Decimal} (h : d.IsSmall) :
    ∃ y, scale? (.ofNat d.digits) d.exponent = some y := by
  obtain ⟨hpos, hfits, hbelow⟩ := h
  refine exists_scale? hfits ?_
  rcases Int.lt_or_le 288 d.exponent with hlarge | hsmall
  · have hplace : (-d.exponent).toNat = 0 := by omega
    have hbound : d.digits * unitsOf (Nat.pow 10 d.exponent.toNat) ≤ belowLargest :=
      hbelow.trans (Nat.le_of_eq (mul_power_of_eq_zero belowLargest hplace))
    refine .inr ⟨?_, hbound⟩
    by_contra hbeyond
    have hscaled : unitsOf (Nat.pow 10 d.exponent.toNat) ≤ belowLargest :=
      (Nat.le_mul_of_pos_left _ hpos).trans hbound
    exact absurd hscaled (Nat.not_le.mpr (belowLargest_lt (by omega)))
  · exact .inl hsmall

end Number

namespace Binary64

theorem holds_of_choice {P : Nat → Bool} {down n : Nat} {p q : Prop} [Decidable p] [Decidable q]
    (h : (match P down, P (down + 1) with
      | true, true => if p then some down else if q then some (down + down % 2) else some (down + 1)
      | true, false => some down
      | false, true => some (down + 1)
      | false, false => none) = some n) : P n = true := by
  split at h
  · rename_i hdown hup
    split_ifs at h
    · cases h
      exact hdown
    · cases h
      rcases Nat.mod_two_eq_zero_or_one down with heven | hodd
      · rw [heven]
        exact hdown
      · rw [hodd]
        exact hup
    · cases h
      exact hup
  · rename_i hdown hup
    cases h
    exact hdown
  · rename_i hdown hup
    cases h
    exact hup
  · cases h

/-- A number of the grid that is found lies in the interval. -/
theorem holds_of_onGrid? {x : Binary64} {place : Int} {n : Nat} (h : x.onGrid? place = some n) :
    x.interval.holds n (Nat.pow 10 place.toNat) (Nat.pow 10 (-place).toNat) = true :=
  holds_of_choice (P := fun n =>
    x.interval.holds n (Nat.pow 10 place.toNat) (Nat.pow 10 (-place).toNat)) h

theorem Interval.le_of_holds {i : Interval} {n gnum gden : Nat} (h : i.holds n gnum gden = true) :
    (i.centre - i.below) * i.num * gden ≤ n * gnum * i.den ∧
      n * gnum * i.den ≤ (i.centre + i.above) * i.num * gden := by
  unfold holds at h
  simp only at h
  split at h <;> simp only [Bool.and_eq_true, decide_eq_true_eq] at h <;> omega

/-! ### Numbers of the grid -/

variable {x : Binary64} {place : Int} {n : Nat}

theorem scaled_le {m e f k : Nat} (hf : 2 ≤ f) (hm : m < 2 * f) (he : e ≤ k + 1)
    (hlargest : ¬ (m = 2 * f - 1 ∧ e = k + 1)) :
    (4 * m + 2) * 2 ^ e ≤ 4 * ((4 * f - 3) * 2 ^ k) := by
  rw [← Nat.mul_assoc]
  rcases Nat.lt_or_ge k e with hlt | hge
  · have heq : e = k + 1 := by omega
    rw [heq, pow_succ', ← Nat.mul_assoc]
    exact Nat.mul_le_mul_right _ (by omega)
  · exact Nat.mul_le_mul (by omega) (Nat.pow_le_pow_right (by decide) hge)

/-- The interval of every number but the largest ends below the largest. -/
theorem interval_le (hlargest : ¬ (x.mantissa = 2 * leastFull - 1 ∧ x.exponent = 2045)) :
    (4 * x.mantissa + 2) * Nat.pow 2 x.exponent ≤ 4 * belowLargest := by
  obtain ⟨hm, -, he⟩ := x.canonical
  have hplace : halfPlace + 1 = 2045 := rfl
  rw [← hplace] at he hlargest
  rw [belowLargest]
  exact scaled_le (by decide) hm he hlargest

theorem below_le (x : Binary64) : x.interval.below ≤ 2 := by
  unfold interval
  simp only
  split_ifs <;> decide

/-- A number of the grid is neither zero nor beyond the interval. -/
theorem bounds_of_onGrid? (hx : x.mantissa ≠ 0) (h : x.onGrid? place = some n) :
    0 < n ∧ n * Nat.pow 10 place.toNat * (4 * unitsPerOne) ≤
      (4 * x.mantissa + 2) * Nat.pow 2 x.exponent * Nat.pow 10 (-place).toNat := by
  obtain ⟨hlow, hhigh⟩ := Interval.le_of_holds (holds_of_onGrid? h)
  refine ⟨Nat.pos_of_ne_zero ?_, hhigh⟩
  rintro rfl
  rw [Nat.zero_mul, Nat.zero_mul] at hlow
  have hcentre : 0 < x.interval.centre - x.interval.below := by
    have hbelow := x.below_le
    have hfour : x.interval.centre = 4 * x.mantissa := rfl
    omega
  have hpos : 0 < (x.interval.centre - x.interval.below) * x.interval.num * Nat.pow 10 (-place).toNat :=
    Nat.mul_pos (Nat.mul_pos hcentre (Nat.pow_pos (by decide))) (Nat.pow_pos (by decide))
  omega

/-! ### The shortest decimal -/

theorem lt_of_width {n m units count shift i j k : Nat}
    (hn : n * 10 ^ j * (4 * units) ≤ 6 * m * 10 ^ i) (hm : m * 10 ^ shift < 10 ^ count * units)
    (hcount : count + i = shift + j + k) : 4 * n < 6 * 10 ^ k := by
  have hlt : 4 * n * (10 ^ j * units * 10 ^ shift) < 6 * 10 ^ k * (10 ^ j * units * 10 ^ shift) :=
    calc 4 * n * (10 ^ j * units * 10 ^ shift) = n * 10 ^ j * (4 * units) * 10 ^ shift := by ring
      _ ≤ 6 * m * 10 ^ i * 10 ^ shift := Nat.mul_le_mul_right _ hn
      _ = 6 * 10 ^ i * (m * 10 ^ shift) := by ring
      _ < 6 * 10 ^ i * (10 ^ count * units) :=
        Nat.mul_lt_mul_of_pos_left hm (Nat.mul_pos (by decide) (Nat.pow_pos (by decide)))
      _ = 6 * 10 ^ (count + i) * units := by ring
      _ = 6 * 10 ^ k * (10 ^ j * units * 10 ^ shift) := by rw [hcount]; ring
  exact Nat.lt_of_mul_lt_mul_right hlt

/-- How many digits the magnitude has, those of four hundred places after the point included. -/
def scaledWidth (x : Binary64) : Nat :=
  Decimal.digitCount (x.magnitude * Nat.pow 10 400 / unitsPerOne)

theorem magnitude_lt_pow_scaledWidth (x : Binary64) {power : Nat} (h : Nat.pow 10 400 = power) :
    x.magnitude * power < 10 ^ x.scaledWidth * unitsPerOne := by
  subst h
  rw [scaledWidth, ← Nat.div_lt_iff_lt_mul unitsPerOne_pos]
  exact Decimal.lt_pow_digitCount _

theorem isSmall_of_onGrid? (hx : x.mantissa ≠ 0)
    (hlargest : ¬ (x.mantissa = 2 * leastFull - 1 ∧ x.exponent = 2045)) {k : Nat} (hk : k < 17)
    (h : x.onGrid? (x.decimalWidth - (k + 1)) = some n) :
    Decimal.IsSmall ⟨n, x.decimalWidth - (k + 1)⟩ := by
  have hwidth : x.decimalWidth = (x.scaledWidth : Int) - 400 := rfl
  generalize hplace : x.decimalWidth - (k + 1) = place at h
  obtain ⟨hpos, hhigh⟩ := bounds_of_onGrid? hx h
  refine ⟨hpos, ?_, ?_⟩
  · have hhalf : (4 * x.mantissa + 2) * Nat.pow 2 x.exponent ≤ 6 * x.magnitude := by
      rw [magnitude, ← Nat.mul_assoc]
      exact Nat.mul_le_mul_right _ (by omega)
    obtain ⟨places, hplaces⟩ : ∃ places : Nat, 400 = places := ⟨_, rfl⟩
    have hpower : Nat.pow 10 400 = 10 ^ places := by rw [hplaces, Nat.pow_eq]
    have hlt : 4 * n < 6 * 10 ^ (k + 1) :=
      lt_of_width (hhigh.trans (Nat.mul_le_mul_right _ hhalf)) (x.magnitude_lt_pow_scaledWidth hpower)
        (by omega)
    have hpow : 10 ^ (k + 1) ≤ 10 ^ 17 := Nat.pow_le_pow_right (by decide) (by omega)
    have hword : maxWord = 18446744073709551615 := rfl
    simp only
    omega
  · have hscaled : 4 * (n * unitsOf (Nat.pow 10 place.toNat)) ≤
        4 * (belowLargest * Nat.pow 10 (-place).toNat) := by
      calc 4 * (n * unitsOf (Nat.pow 10 place.toNat))
          = n * Nat.pow 10 place.toNat * (4 * unitsPerOne) := by rw [unitsOf]; ring
        _ ≤ (4 * x.mantissa + 2) * Nat.pow 2 x.exponent * Nat.pow 10 (-place).toNat := hhigh
        _ ≤ 4 * belowLargest * Nat.pow 10 (-place).toNat :=
          Nat.mul_le_mul_right _ (interval_le hlargest)
        _ = 4 * (belowLargest * Nat.pow 10 (-place).toNat) := Nat.mul_assoc ..
    exact Nat.le_of_mul_le_mul_left hscaled (by decide)

/-- The shortest decimal of a number but the largest is small, or nothing was found. -/
theorem isSmall_shortest (hlargest : ¬ (x.mantissa = 2 * leastFull - 1 ∧ x.exponent = 2045)) :
    x.shortest = ⟨0, 0⟩ ∨ x.shortest.IsSmall := by
  unfold shortest
  split_ifs with hx
  · exact .inl rfl
  · simp only
    generalize hfound : (List.range 17).findSome? _ = found
    cases found with
    | none => exact .inl rfl
    | some d =>
      obtain ⟨k, hk, hd⟩ := List.exists_of_findSome?_eq_some hfound
      obtain ⟨n, hn, rfl⟩ := Option.map_eq_some_iff.mp hd
      exact .inr (isSmall_of_onGrid? hx hlargest (List.mem_range.mp hk) hn).normal

theorem shortest_largest : ∀ negative, (largest negative).shortest = ⟨17976931348623157, 292⟩ := by
  decide +kernel

theorem productsFit_largest : Number.ProductsFit 17976931348623157 292 := by decide +kernel

theorem eq_largest (h : x.mantissa = 2 * leastFull - 1 ∧ x.exponent = 2045) :
    x = largest x.negative := by
  obtain ⟨negative, mantissa, exponent, hcanonical⟩ := x
  obtain ⟨rfl, rfl⟩ := h
  rfl

/-- **The digits of a number's shortest decimal times its power of ten are a number.** -/
theorem exists_scale?_shortest (x : Binary64) :
    ∃ y, Number.scale? (.ofNat x.shortest.digits) x.shortest.exponent = some y := by
  by_cases hlargest : x.mantissa = 2 * leastFull - 1 ∧ x.exponent = 2045
  · rw [eq_largest hlargest, shortest_largest]
    exact productsFit_largest.exists_scale? (Nat.le_refl _) (Nat.le_refl 292) (by decide)
  · rcases isSmall_shortest hlargest with hzero | hsmall
    · rw [hzero]
      exact Number.exists_scale? (Nat.zero_le _) (.inl (by decide))
    · exact Number.exists_scale?_of_isSmall hsmall

theorem shortest_digits (x : Binary64) :
    x.shortest.digits ≤ maxWord ∧ (x.shortest.digits = 0 → x.shortest.exponent = 0) := by
  by_cases hlargest : x.mantissa = 2 * leastFull - 1 ∧ x.exponent = 2045
  · rw [eq_largest hlargest, shortest_largest]
    exact ⟨by decide, by decide⟩
  · rcases isSmall_shortest hlargest with hzero | hsmall
    · rw [hzero]
      exact ⟨by decide, fun _ => rfl⟩
    · exact ⟨hsmall.fits, fun h => absurd h (Nat.ne_of_gt hsmall.pos)⟩

end Binary64

end ExperimentKpi
