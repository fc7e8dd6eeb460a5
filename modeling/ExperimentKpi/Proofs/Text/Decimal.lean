/-
# Integers in decimal

The digits of a number spell the number again (`digitsValue_toDigits`), none but the number zero
starts with a zero (`head?_toDigits`), digits that start with none are those of the number that they
spell (`toDigits_digitsValue`), the text of an integer consists of digits and perhaps a sign
(`ne_of_mem_toString`), no two integers have the same text (`toString_int_injective`), and the text of
an integer of 64 bits reads as that integer (`int64?_toString`). A number of 64 bits is read from digits
with or without a plus sign (`word?_append`, `exists_of_word?`).

Key theorems: `Text.digitsValue_toDigits`, `Text.head?_toDigits`, `Text.toDigits_digitsValue`,
`Text.toString_int_injective`, `Text.int64?_toString`, `Text.word?_append`.
-/
import ExperimentKpi.Text.Integer

namespace ExperimentKpi.Text

theorem isDigit_eq (c : Char) : isDigit c = c.isDigit := by
  simp only [isDigit, Char.isDigit, Char.le_def, ge_iff_le]

theorem isDigit_of_mem_toDigits {n : Nat} {c : Char} (h : c ∈ Nat.toDigits 10 n) :
    isDigit c = true :=
  (isDigit_eq c).trans (Nat.isDigit_of_mem_toDigits (by decide) (by decide) h)

/-- The digits of a number spell the number. -/
@[simp] theorem digitsValue_toDigits (n : Nat) : digitsValue (Nat.toDigits 10 n) = n :=
  Nat.ofDigitChars_ten_toDigits

theorem natural?_toDigits (n : Nat) : natural? (Nat.toDigits 10 n) = some n := by
  have hall : (Nat.toDigits 10 n).all isDigit = true :=
    List.all_eq_true.mpr fun _ h => isDigit_of_mem_toDigits h
  simp [natural?, hall]

theorem natural?_eq_some_iff {s : List Char} {n : Nat} :
    natural? s = some n ↔ s ≠ [] ∧ (∀ c ∈ s, isDigit c = true) ∧ digitsValue s = n := by
  rw [natural?]
  simp [and_assoc]

/-- A number of 64 bits, with or without a plus sign in front. -/
theorem word?_append {sign digits : List Char} {n : Nat} (hsign : sign = [] ∨ sign = ['+'])
    (h : natural? digits = some n) :
    word? (sign ++ digits) = if n < wordSize then some n else none := by
  have hfilter : (natural? digits).filter (· < wordSize) = if n < wordSize then some n else none := by
    rw [h, Option.filter_some]
    simp only [decide_eq_true_eq]
  rcases hsign with rfl | rfl
  · have hplus : ∀ r, [] ++ digits ≠ '+' :: r := by
      rintro r rfl
      have hdigit := (natural?_eq_some_iff.mp h).2.1 '+' List.mem_cons_self
      exact absurd hdigit (by decide)
    rw [word?, unsigned?]
    · exact hfilter
    · exact hplus
  · exact hfilter

theorem exists_of_word? {s : List Char} {n : Nat} (h : word? s = some n) :
    ∃ sign digits, (sign = [] ∨ sign = ['+']) ∧ s = sign ++ digits ∧ natural? digits = some n ∧
      n < wordSize := by
  unfold word? unsigned? at h
  obtain ⟨hnumber, hbound⟩ := Option.filter_eq_some_iff.mp h
  have hlt : n < wordSize := of_decide_eq_true hbound
  split at hnumber
  · exact ⟨['+'], _, .inr rfl, rfl, hnumber, hlt⟩
  · exact ⟨[], s, .inl rfl, rfl, hnumber, hlt⟩

/-- No number but zero starts with a zero. -/
theorem head?_toDigits {n : Nat} (h : n ≠ 0) : (Nat.toDigits 10 n).head? ≠ some '0' := by
  induction n using Nat.strongRecOn with
  | _ n ih =>
    rw [Nat.toDigits_eq_if (by decide)]
    split
    · rename_i hn
      have hd : ∀ m : Nat, m < 10 → m ≠ 0 → Nat.digitChar m ≠ '0' := by decide
      simpa using hd n hn h
    · rename_i hn
      have hdiv := ih (n / 10) (Nat.div_lt_self (by omega) (by decide)) (by omega)
      obtain ⟨d, r, hr⟩ := List.exists_cons_of_ne_nil (Nat.toDigits_ne_nil (n := n / 10))
      rw [hr] at hdiv ⊢
      exact hdiv

/-- A decimal digit is the digit of its value. -/
theorem toDigits_digitValue {c : Char} (h : isDigit c = true) :
    Nat.toDigits 10 (digitValue c) = [c] := by
  have hrange : 48 ≤ c.toNat ∧ c.toNat ≤ 57 := by
    simp only [isDigit, Bool.and_eq_true, decide_eq_true_eq] at h
    exact h
  obtain ⟨d, hd⟩ : ∃ d, c.toNat = 48 + d := ⟨c.toNat - 48, by omega⟩
  have hall : ∀ d < 10, Nat.toDigits 10 (digitValue (Char.ofNat (48 + d))) = [Char.ofNat (48 + d)] := by
    decide
  rw [← Char.ofNat_toNat c, hd]
  exact hall d (by omega)

theorem digitValue_lt {c : Char} (h : isDigit c = true) : digitValue c < 10 := by
  have hrange : c.toNat ≤ 57 := by
    simp only [isDigit, Bool.and_eq_true, decide_eq_true_eq] at h
    exact h.2
  have hzero : '0'.toNat = 48 := by decide
  unfold digitValue
  omega

/-- Digits behind those of a number are the digits of the number that they go on to spell. -/
theorem toDigits_foldl {s : List Char} (h : s.all isDigit = true) {n : Nat} (hn : 0 < n) :
    Nat.toDigits 10 (s.foldl (fun n c => 10 * n + digitValue c) n) = Nat.toDigits 10 n ++ s := by
  induction s generalizing n with
  | nil => exact (List.append_nil _).symm
  | cons c s ih =>
    rw [List.all_cons, Bool.and_eq_true] at h
    calc
      _ = Nat.toDigits 10 (10 * n + digitValue c) ++ s := ih h.2 (by omega)
      _ = Nat.toDigits 10 n ++ Nat.toDigits 10 (digitValue c) ++ s := by
        rw [Nat.toDigits_append_toDigits (by decide) hn (digitValue_lt h.1)]
      _ = Nat.toDigits 10 n ++ c :: s := by
        rw [toDigits_digitValue h.1, List.append_assoc, List.singleton_append]

/-- Digits that start with no zero are those of the number that they spell. -/
theorem toDigits_digitsValue {s : List Char} (h : s.all isDigit = true) (hne : s ≠ [])
    (hzero : s.head? ≠ some '0') : Nat.toDigits 10 (digitsValue s) = s := by
  obtain ⟨c, r, rfl⟩ := List.exists_cons_of_ne_nil hne
  rw [List.all_cons, Bool.and_eq_true] at h
  have hpos : 0 < digitValue c := by
    refine Nat.pos_of_ne_zero fun hnot => ?_
    have hdigit := toDigits_digitValue h.1
    rw [hnot] at hdigit
    exact hzero (congrArg List.head? hdigit.symm)
  calc
    Nat.toDigits 10 (digitsValue (c :: r))
    _ = Nat.toDigits 10 (r.foldl (fun n c => 10 * n + digitValue c) (digitValue c)) := by
      rw [digitsValue, List.foldl_cons, Nat.mul_zero, Nat.zero_add]
    _ = c :: r := by
      rw [toDigits_foldl h.2 hpos, toDigits_digitValue h.1, List.singleton_append]

theorem toDigits_of_nonneg {z : Int} (h : 0 ≤ z) :
    (toString z).toList = Nat.toDigits 10 z.natAbs := by
  rw [Int.toString_eq_repr, Int.repr_eq_if, if_pos h, Nat.toList_repr]
  congr 1
  omega

theorem toDigits_of_neg {z : Int} (h : z < 0) :
    (toString z).toList = '-' :: Nat.toDigits 10 z.natAbs := by
  rw [Int.toString_eq_repr, Int.repr_eq_if, if_neg (by omega)]
  have : (-z).toNat = z.natAbs := by omega
  simp [this]

/-- In the text of an integer stand digits and perhaps a minus sign. -/
theorem ne_of_mem_toString {z : Int} {c d : Char} (hc : c ∈ (toString z).toList)
    (hd : isDigit d = false) (hsign : d ≠ '-') : c ≠ d := by
  rintro rfl
  rcases Int.lt_or_le z 0 with hz | hz
  · rw [toDigits_of_neg hz, List.mem_cons] at hc
    rcases hc with rfl | hc
    · exact hsign rfl
    · rw [isDigit_of_mem_toDigits hc] at hd
      cases hd
  · rw [toDigits_of_nonneg hz] at hc
    rw [isDigit_of_mem_toDigits hc] at hd
    cases hd

/-- No two integers have the same text. -/
theorem toString_int_injective : Function.Injective (toString : Int → String) := by
  have hdigits {m n : Nat} (h : Nat.toDigits 10 m = Nat.toDigits 10 n) : m = n := by
    rw [← digitsValue_toDigits m, h, digitsValue_toDigits]
  -- A minus sign is no digit, so the texts of a negative and of another integer differ.
  have hsign (m n : Nat) : '-' :: Nat.toDigits 10 m ≠ Nat.toDigits 10 n := fun h =>
    absurd (isDigit_of_mem_toDigits (h ▸ List.mem_cons_self)) (by decide)
  intro z w h
  have h' : (toString z).toList = (toString w).toList := congrArg String.toList h
  rcases Int.lt_or_le z 0 with hz | hz <;> rcases Int.lt_or_le w 0 with hw | hw
  · rw [toDigits_of_neg hz, toDigits_of_neg hw, List.cons.injEq] at h'
    have := hdigits h'.2
    omega
  · rw [toDigits_of_neg hz, toDigits_of_nonneg hw] at h'
    exact (hsign _ _ h').elim
  · rw [toDigits_of_nonneg hz, toDigits_of_neg hw] at h'
    exact (hsign _ _ h'.symm).elim
  · rw [toDigits_of_nonneg hz, toDigits_of_nonneg hw] at h'
    have := hdigits h'
    omega

/-- The text of an integer of 64 bits reads as the integer. -/
theorem int64?_toString {z : Int} (h : IsInt64 z) : int64? (toString z).toList = some z := by
  have hrange : decide (-(int64Bound : Int) ≤ z ∧ z < int64Bound) = true := decide_eq_true h
  rcases Int.lt_or_le z 0 with hz | hz
  · have hval : -Int.ofNat z.natAbs = z := by
      simp only [Int.ofNat_eq_natCast]
      omega
    rw [toDigits_of_neg hz, int64?, signed?]
    simp only [natural?_toDigits, Option.map_some, hval, Option.filter_some, hrange, if_true]
  · have hval : Int.ofNat z.natAbs = z := by
      simp only [Int.ofNat_eq_natCast]
      omega
    have hsign : ∀ c ∈ (Nat.toDigits 10 z.natAbs).head?, c ≠ '+' ∧ c ≠ '-' := by
      intro c hc
      have := isDigit_of_mem_toDigits (List.mem_of_mem_head? hc)
      constructor <;> rintro rfl <;> revert this <;> decide
    rw [toDigits_of_nonneg hz, int64?, signed?]
    · rw [natural?_toDigits, Option.map_some, hval, Option.filter_some, if_pos hrange]
    · exact fun r hr => (hsign '+' (by simp [hr])).1 rfl
    · exact fun r hr => (hsign '-' (by simp [hr])).2 rfl

end ExperimentKpi.Text
