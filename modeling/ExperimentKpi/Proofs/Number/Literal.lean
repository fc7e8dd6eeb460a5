/-
# Literals that are numbers

A significand of 64 bits times a power of ten is a number unless it lies beyond the finite ones
(`exists_scale?`): a quotient by a power of ten always exists, and a product exists where the power is
`10^288` at most or the product stays below the second largest finite number and half a last place. So
every literal whose point and exponent leave its digits in place is a number (`exists_float?_of_le`).

Key theorems: `Number.exists_scale?_of_neg`, `Number.exists_scale?`, `Number.exists_float?_of_le`.
-/
import ExperimentKpi.Number.Basic
import ExperimentKpi.Proofs.Number.Rounding

namespace ExperimentKpi.Number

open Binary64 (rounded overflow unitsPerOne halfPlace leastFull)

/-- Half a last place beyond the second largest finite number, in units. -/
def belowLargest : Nat :=
  (4 * leastFull - 3) * 2 ^ halfPlace

/-! ### Numbers of integers -/

/-- The units of an integer. -/
def unitsOf (n : Nat) : Nat :=
  n * unitsPerOne

theorem unitsOf_mono {m n : Nat} (h : m ≤ n) : unitsOf m ≤ unitsOf n :=
  Nat.mul_le_mul_right _ h

theorem unitsOf_pos {n : Nat} (h : 0 < n) : 0 < unitsOf n :=
  Nat.mul_pos h Binary64.unitsPerOne_pos

theorem exists_ofRatio?_one {n bound : Nat} (hbound : unitsOf bound < overflow) (hn : n ≤ bound) :
    ∃ x, Binary64.ofRatio? false n 1 = some x ∧ x.magnitude ≤ rounded (unitsOf bound) 1 := by
  have hlt : unitsOf n < overflow * 1 := by
    rw [Nat.mul_one]
    exact Nat.lt_of_le_of_lt (unitsOf_mono hn) hbound
  obtain ⟨x, hx⟩ := Binary64.exists_ofRatio? false Nat.one_pos hlt
  refine ⟨x, hx, ?_⟩
  rw [Binary64.magnitude_of_ofRatio? hx]
  exact Binary64.rounded_mono Nat.one_pos (unitsOf_mono hn)

theorem magnitude_ofNat_le {n bound : Nat} (hbound : unitsOf bound < overflow) (hn : n ≤ bound) :
    (Binary64.ofNat n).magnitude ≤ rounded (unitsOf bound) 1 := by
  obtain ⟨x, hx, hmagnitude⟩ := exists_ofRatio?_one hbound hn
  rwa [Binary64.ofNat, hx, Option.getD_some]

/-! ### Powers of ten -/

theorem power_mono {i j : Nat} (h : i ≤ j) : Nat.pow 10 i ≤ Nat.pow 10 j :=
  Nat.pow_le_pow_right (by decide) h

theorem unitsOf_power_lt : ∀ k < 309, unitsOf (Nat.pow 10 k) < overflow := by decide +kernel

theorem exists_power {k bound : Nat} (hk : k ≤ bound) (hbound : bound ≤ 308) :
    ∃ x, Binary64.ofRatio? false (Nat.pow 10 k) 1 = some x ∧
      x.magnitude ≤ rounded (unitsOf (Nat.pow 10 bound)) 1 :=
  exists_ofRatio?_one (unitsOf_power_lt bound (by omega)) (power_mono hk)

theorem unitsPerOne_le_rounded : unitsPerOne ≤ rounded (unitsOf 1) 1 := by decide +kernel

/-- No power of ten falls below one. -/
theorem unitsPerOne_le_power {k : Nat} {x : Binary64}
    (h : Binary64.ofRatio? false (Nat.pow 10 k) 1 = some x) : unitsPerOne ≤ x.magnitude := by
  have hone : unitsOf 1 ≤ unitsOf (Nat.pow 10 k) := unitsOf_mono (Nat.pow_pos (by decide))
  rw [Binary64.magnitude_of_ofRatio? h]
  exact unitsPerOne_le_rounded.trans (Binary64.rounded_mono Nat.one_pos hone)

/-! ### Scaling -/

theorem exists_scaleOnce?_of_neg (x : Binary64) {place : Int} (hneg : place < 0)
    (hplace : -308 ≤ place) : ∃ y, scaleOnce? x place = some y := by
  have hbound : place.natAbs ≤ 308 := by omega
  obtain ⟨power, hpower, -⟩ := exists_power hbound (Nat.le_refl _)
  obtain ⟨y, hy⟩ := Binary64.exists_div? (x := x) (unitsPerOne_le_power hpower)
  have hnot : ¬ 0 ≤ place := by omega
  exact ⟨y, by rw [scaleOnce?, if_neg hnot, hpower, Option.bind_some, hy]⟩

/-- **Every number can be divided by every power of ten.** -/
theorem exists_scale?_of_neg : ∀ (k : Nat) (x : Binary64) (place : Int), place < 0 →
    place.natAbs ≤ k → ∃ y, scale? x place = some y
  | 0, _, _, hneg, hk => by omega
  | k + 1, x, place, hneg, hk => by
    rw [scale?]
    split_ifs with hnear hzero
    · exact exists_scaleOnce?_of_neg x hneg hnear.1
    · exact ⟨x, rfl⟩
    · omega
    · obtain ⟨y, hy⟩ := exists_scaleOnce?_of_neg x (show (-308 : Int) < 0 by decide) (by decide)
      rw [hy, Option.bind_some]
      exact exists_scale?_of_neg k y (place + 308) (by omega) (by omega)

/-- The largest product of a significand up to `bound` with a power of ten up to `10^k` stays below the
overflow. -/
def ProductsFit (bound k : Nat) : Prop :=
  unitsOf bound < overflow ∧
    rounded (unitsOf bound) 1 * rounded (unitsOf (Nat.pow 10 k)) 1 < overflow * unitsPerOne

instance (bound k : Nat) : Decidable (ProductsFit bound k) := by
  unfold ProductsFit
  infer_instance

theorem ProductsFit.exists_scale? {bound k n place : Nat} (h : ProductsFit bound k) (hn : n ≤ bound)
    (hplace : place ≤ k) (hk : k ≤ 308) : ∃ y, scale? (.ofNat n) place = some y := by
  obtain ⟨hbound, hproduct⟩ := h
  obtain ⟨power, hpower, hmagnitude⟩ := exists_power hplace hk
  have hlt : (Binary64.ofNat n).magnitude * power.magnitude < overflow * unitsPerOne :=
    Nat.lt_of_le_of_lt (Nat.mul_le_mul (magnitude_ofNat_le hbound hn) hmagnitude) hproduct
  obtain ⟨y, hy⟩ := Binary64.exists_mul? hlt
  have hnear : (-308 : Int) ≤ place ∧ (place : Int) ≤ 308 := by omega
  refine ⟨y, ?_⟩
  rw [scale?, if_pos hnear, scaleOnce?, if_pos (Int.natCast_nonneg place), Int.natAbs_natCast, hpower,
    Option.bind_some, hy]

/-- The largest significand at a power of ten that stays below the second largest finite number. -/
def largestAt (place : Nat) : Nat :=
  belowLargest / unitsOf (Nat.pow 10 place)

theorem le_largestAt {n place : Nat} (h : n * unitsOf (Nat.pow 10 place) ≤ belowLargest) :
    n ≤ largestAt place := by
  have hpower : 0 < Nat.pow 10 place := Nat.pow_pos (by decide)
  rw [largestAt, Nat.le_div_iff_mul_le (unitsOf_pos hpower)]
  exact h

theorem productsFit_maxWord : ProductsFit maxWord 288 := by decide +kernel

theorem productsFit_largestAt : ∀ i < 20, ProductsFit (largestAt (289 + i)) (289 + i) := by
  decide +kernel

/-- **A significand at a power of ten is a number** unless it lies beyond the finite ones. -/
theorem exists_scale? {n : Nat} {place : Int} (hn : n ≤ maxWord)
    (h : place ≤ 288 ∨ place ≤ 308 ∧ n * unitsOf (Nat.pow 10 place.toNat) ≤ belowLargest) :
    ∃ y, scale? (.ofNat n) place = some y := by
  rcases Int.lt_or_le place 0 with hneg | hpos
  · exact exists_scale?_of_neg _ _ place hneg (Nat.le_refl _)
  · obtain ⟨k, rfl⟩ := Int.eq_ofNat_of_zero_le hpos
    rcases Nat.lt_or_ge 288 k with hlarge | hsmall
    · rcases h with h | ⟨h, hbelow⟩
      · omega
      · rw [Int.toNat_natCast] at hbelow
        obtain ⟨i, hi⟩ : ∃ i, k = 289 + i := Nat.exists_eq_add_of_le hlarge
        rw [hi] at hbelow ⊢
        exact (productsFit_largestAt i (by omega)).exists_scale? (le_largestAt hbelow) (Nat.le_refl _)
          (by omega)
    · exact productsFit_maxWord.exists_scale? hn hsmall (by decide)

/-! ### Literals -/

theorem keptDigits_le : ∀ (digits : List Char) {n : Nat}, n ≤ maxWord →
    (keptDigits n digits).1 ≤ maxWord ∧ (keptDigits n digits).2 ≤ digits.length
  | [], _, h => ⟨h, Nat.le_refl _⟩
  | c :: r, n, h => by
    rw [keptDigits]
    split_ifs with hfits
    · obtain ⟨hkept, hdropped⟩ := keptDigits_le r hfits
      exact ⟨hkept, Nat.le_succ_of_le hdropped⟩
    · exact ⟨h, Nat.le_refl _⟩

/-- No digit of a number of 64 bits is dropped. -/
theorem keptDigits_of_le : ∀ (digits : List Char) {n : Nat},
    digits.foldl (fun n c => 10 * n + Text.digitValue c) n ≤ maxWord →
      keptDigits n digits = (digits.foldl (fun n c => 10 * n + Text.digitValue c) n, 0)
  | [], _, _ => rfl
  | c :: r, n, h => by
    have hgrows : ∀ (digits : List Char) (n : Nat),
        n ≤ digits.foldl (fun n c => 10 * n + Text.digitValue c) n := by
      intro digits
      induction digits with
      | nil => exact fun n => Nat.le_refl n
      | cons c r ih => exact fun n => Nat.le_trans (by omega) (ih (10 * n + Text.digitValue c))
    rw [List.foldl_cons] at h ⊢
    rw [keptDigits, if_pos (Nat.le_trans (hgrows r _) h), keptDigits_of_le r h]

namespace Literal

/-- The power of ten that the exponent of a literal is. -/
def shift (l : Literal) : Int :=
  match l.exponent with
  | none => 0
  | some (true, digits) => -(Text.digitsValue digits : Int)
  | some (false, digits) => Text.digitsValue digits

/-- The significand of a literal and its power of ten, the exponent aside. -/
def significand (l : Literal) : Nat × Int :=
  let (whole, dropped) := keptDigits 0 l.whole
  match l.fraction with
  | none => (whole, dropped)
  | some digits =>
    let (n, rest) := keptDigits whole digits
    (n, (dropped : Int) + rest - digits.length)

theorem float?_eq (l : Literal) :
    l.float? = (scale? (.ofNat l.significand.1) (l.significand.2 + l.shift)).map fun x =>
      float { x with negative := l.negative } := rfl

theorem exists_float? {l : Literal}
    (h : ∃ y, scale? (.ofNat l.significand.1) (l.significand.2 + l.shift) = some y) :
    ∃ n, l.float? = some n := by
  obtain ⟨y, hy⟩ := h
  rw [float?_eq, hy]
  exact ⟨_, rfl⟩

theorem significand_le (l : Literal) :
    l.significand.1 ≤ maxWord ∧ l.significand.2 ≤ l.whole.length := by
  obtain ⟨hkept, hdropped⟩ := keptDigits_le l.whole (Nat.zero_le maxWord)
  unfold significand
  cases l.fraction with
  | none => exact ⟨hkept, by simpa using hdropped⟩
  | some digits =>
    obtain ⟨hkept', hdropped'⟩ := keptDigits_le digits hkept
    refine ⟨hkept', ?_⟩
    simp only
    omega

/-- **A literal of few digits before the point is a number** unless its exponent is large. -/
theorem exists_float?_of_le {l : Literal} (h : (l.whole.length : Int) + l.shift ≤ 288) :
    ∃ n, l.float? = some n := by
  obtain ⟨hword, hplace⟩ := l.significand_le
  exact exists_float? (exists_scale? hword (.inl (by omega)))

/-- The significand of a literal with one digit before the point is that of all its digits. -/
theorem significand_of_whole {l : Literal} {d : Char} {r : List Char} (hwhole : l.whole = [d])
    (hfraction : l.fraction = none ∧ r = [] ∨ l.fraction = some r)
    (hword : Text.digitsValue (d :: r) ≤ maxWord) :
    l.significand = (Text.digitsValue (d :: r), -(r.length : Int)) := by
  have hall : keptDigits 0 (d :: r) = (Text.digitsValue (d :: r), 0) := keptDigits_of_le _ hword
  rw [keptDigits] at hall
  split_ifs at hall with hfits
  · have hfirst : keptDigits 0 [d] = (10 * 0 + Text.digitValue d, 0) := by
      rw [keptDigits, if_pos hfits, keptDigits]
    unfold significand
    rcases hfraction with ⟨hnone, rfl⟩ | hsome
    · simp only [hwhole, hnone, hfirst]
      simpa [keptDigits] using hall
    · simp only [hwhole, hsome, hfirst, hall]
      simp
  · simp at hall

end Literal

end ExperimentKpi.Number
