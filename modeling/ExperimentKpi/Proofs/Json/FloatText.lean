/-
# Floats in texts

The text of a float is read as some number (`Number.exists_next?_float`), which need not be the float
itself: reading drops digits and rounds more than once. Written with a point, a float has at most
eighteen digits before it; written with an exponent, it has one, and the exponent leaves its shortest
digits at their power of ten.

Key definitions: `Json.IsDigits`, `Json.IsWhole`, `Number.reread`.
Key theorems: `Number.exists_next?_float`, `Number.readsAs_reread`.
-/
import ExperimentKpi.Proofs.Json.NumberText
import ExperimentKpi.Proofs.Number.Shortest

namespace ExperimentKpi

namespace Json

/-- One or more digits. -/
def IsDigits (s : List Char) : Prop :=
  s ≠ [] ∧ ∀ c ∈ s, Text.isDigit c = true

/-- Digits that may stand before a point. -/
def IsWhole (s : List Char) : Prop :=
  IsDigits s ∧ (s.head? ≠ some '0' ∨ s.length = 1)

/-- The text starts with no digit. -/
def NoDigit (s : List Char) : Prop :=
  ∀ c ∈ s.head?, Text.isDigit c = false

variable {s t rest : List Char}

theorem noDigit_nil : NoDigit [] := nofun

theorem noDigit_cons {c : Char} (h : Text.isDigit c = false) : NoDigit (c :: s) := by
  intro d hd
  cases hd
  exact h

theorem isDigits_toDigits (n : Nat) : IsDigits (Nat.toDigits 10 n) :=
  ⟨Nat.toDigits_ne_nil, fun _ => Text.isDigit_of_mem_toDigits⟩

theorem isDigits_zero : IsDigits ['0'] := isDigits_toDigits 0

theorem IsDigits.append_zeros (h : IsDigits s) (k : Nat) : IsDigits (s ++ List.replicate k '0') := by
  refine ⟨by simp [h.1], fun c hc => ?_⟩
  rcases List.mem_append.mp hc with hc | hc
  · exact h.2 c hc
  · rw [List.eq_of_mem_replicate hc]
    decide

theorem digits?_of_isDigits (h : IsDigits s) (hrest : NoDigit rest) :
    digits? (s ++ rest) = some (s, rest) := by
  have htail : rest.takeWhile Text.isDigit = [] ∧ rest.dropWhile Text.isDigit = rest := by
    cases rest with
    | nil => exact ⟨rfl, rfl⟩
    | cons c r => simp [hrest c rfl]
  have hempty : s.isEmpty = false := by simpa using h.1
  rw [digits?, List.takeWhile_append_of_pos h.2, List.dropWhile_append_of_pos h.2, htail.1, htail.2,
    List.append_nil]
  simp [hempty]

theorem whole?_of_isWhole (h : IsWhole s) (hrest : NoDigit rest) :
    whole? (s ++ rest) = some (s, rest) := by
  rw [whole?, Option.filter_eq_some_iff]
  refine ⟨digits?_of_isDigits h.1 hrest, ?_⟩
  rcases h.2 with hhead | hone
  · simp [hhead]
  · simp [hone]

theorem fraction?_point (h : IsDigits s) (hrest : NoDigit rest) :
    fraction? ('.' :: (s ++ rest)) = some (some s, rest) := by
  rw [fraction?, digits?_of_isDigits h hrest, Option.map_some]

theorem fraction?_e : fraction? ('e' :: s) = some (none, 'e' :: s) := by
  simp [fraction?]

theorem exponent?_toString (z : Int) : exponent? ('e' :: (toString z).toList) =
    some (some (decide (z < 0), Nat.toDigits 10 z.natAbs), []) := by
  have hdigits : digits? (Nat.toDigits 10 z.natAbs) = some (Nat.toDigits 10 z.natAbs, []) := by
    simpa using digits?_of_isDigits (isDigits_toDigits z.natAbs) noDigit_nil
  rcases Int.lt_or_le z 0 with hneg | hpos
  · rw [Text.toDigits_of_neg hneg, decide_eq_true hneg]
    simp [exponent?, hdigits]
  · have hz : ¬ z < 0 := by omega
    rw [Text.toDigits_of_nonneg hpos, decide_eq_false hz]
    obtain ⟨c, r, hc⟩ := List.exists_cons_of_ne_nil (Nat.toDigits_ne_nil (n := z.natAbs))
    have hdigit : Text.isDigit c = true := Text.isDigit_of_mem_toDigits (hc ▸ List.mem_cons_self)
    have hplus : c ≠ '+' := by
      rintro rfl
      exact absurd hdigit (by decide)
    have hminus : c ≠ '-' := by
      rintro rfl
      exact absurd hdigit (by decide)
    rw [hc] at hdigits ⊢
    simp [exponent?, hplus, hminus, hdigits]

/-! ### Literals of floats -/

theorem literal?_of_parts {negative : Bool} {whole r₁ r₂ r₃ : List Char}
    {fraction : Option (List Char)} {exponent : Option (Bool × List Char)}
    (hwhole : whole? s = some (whole, r₁)) (hfraction : fraction? r₁ = some (fraction, r₂))
    (hexponent : exponent? r₂ = some (exponent, r₃)) :
    literal? negative s = some (⟨negative, whole, fraction, exponent⟩, r₃) := by
  simp [literal?, hwhole, hfraction, hexponent]

theorem literal?_pointed {negative : Bool} (hs : IsWhole s) (ht : IsDigits t) :
    literal? negative (s ++ '.' :: t) = some (⟨negative, s, some t, none⟩, []) := by
  have hfraction := fraction?_point ht noDigit_nil
  rw [List.append_nil] at hfraction
  exact literal?_of_parts (whole?_of_isWhole hs (noDigit_cons rfl)) hfraction rfl

theorem exists_pointed {width : Int} (h : IsDigits s) (hhead : s.head? ≠ some '0' ∨ width ≤ 1) :
    ∃ whole fraction, Number.pointed s width = whole ++ '.' :: fraction ∧ IsWhole whole ∧
      IsDigits fraction ∧ whole.length ≤ max 1 width.toNat := by
  have hzero := isDigits_zero
  have hlength : 0 < s.length := List.length_pos_iff.mpr h.1
  rw [Number.pointed]
  split_ifs with hwidth
  · refine ⟨['0'], List.replicate width.natAbs '0' ++ s, by simp, ⟨hzero, .inr rfl⟩, ?_, by simp⟩
    refine ⟨by simp [h.1], fun c hc => ?_⟩
    rcases List.mem_append.mp hc with hc | hc
    · rw [List.eq_of_mem_replicate hc]
      decide
    · exact h.2 c hc
  · obtain ⟨n, hn⟩ : ∃ n, width.toNat = n + 1 := ⟨width.toNat - 1, by omega⟩
    have hhead' : ∀ {whole : List Char}, whole.head? = s.head? → whole.length = n + 1 →
        whole.head? ≠ some '0' ∨ whole.length = 1 := by
      intro whole heq hwhole
      rcases hhead with hhead | hone
      · exact .inl (heq ▸ hhead)
      · exact .inr (by omega)
    simp only [hn]
    split_ifs with hfew
    · have hlen : (s ++ List.replicate (n + 1 - s.length) '0').length = n + 1 := by
        rw [List.length_append, List.length_replicate]
        omega
      refine ⟨s ++ List.replicate (n + 1 - s.length) '0', ['0'], rfl,
        ⟨h.append_zeros _, hhead' ?_ hlen⟩, hzero, by omega⟩
      rw [List.head?_append, List.head?_eq_some_head h.1, Option.some_or]
    · have hlen : (s.take (n + 1)).length = n + 1 := by
        rw [List.length_take]
        omega
      refine ⟨s.take (n + 1), s.drop (n + 1), rfl, ⟨⟨?_, ?_⟩, hhead' ?_ hlen⟩, ⟨?_, ?_⟩, by omega⟩
      · exact List.ne_nil_of_length_pos (by omega)
      · exact fun c hc => h.2 c (List.mem_of_mem_take hc)
      · rw [List.head?_take, if_neg (Nat.succ_ne_zero n)]
      · exact List.ne_nil_of_length_pos (by rw [List.length_drop]; omega)
      · exact fun c hc => h.2 c (List.mem_of_mem_drop hc)

theorem literal?_scientific (negative : Bool) {d : Char} {r : List Char} (h : IsDigits (d :: r))
    (z : Int) : ∃ fraction, (fraction = none ∧ r = [] ∨ fraction = some r) ∧
      literal? negative (Number.scientific (d :: r) z) = some
        (⟨negative, [d], fraction, some (decide (z < 0), Nat.toDigits 10 z.natAbs)⟩, []) := by
  have hd : IsWhole [d] := ⟨⟨by simp, by simpa using h.2 d (by simp)⟩, .inr rfl⟩
  have hexponent := exponent?_toString z
  cases r with
  | nil =>
    exact ⟨none, .inl ⟨rfl, rfl⟩,
      literal?_of_parts (whole?_of_isWhole hd (noDigit_cons rfl)) fraction?_e hexponent⟩
  | cons c r =>
    have hr : IsDigits (c :: r) := ⟨by simp, fun e he => h.2 e (List.mem_cons_of_mem d he)⟩
    exact ⟨some (c :: r), .inr rfl, literal?_of_parts (whole?_of_isWhole hd (noDigit_cons rfl))
      (fraction?_point hr (noDigit_cons rfl)) hexponent⟩

end Json

namespace Number

open Json (IsDigits IsWhole)

theorem Literal.value?_of_point {l : Literal} (h : l.fraction ≠ none ∨ l.exponent ≠ none) :
    l.value? = l.float? := by
  unfold Literal.value?
  split
  · rename_i hfraction hexponent
    exact absurd h (by simp [hfraction, hexponent])
  · rfl

theorem Literal.shift_of_int {l : Literal} {z : Int}
    (h : l.exponent = some (decide (z < 0), Nat.toDigits 10 z.natAbs)) : l.shift = z := by
  unfold Literal.shift
  rw [h]
  rcases Int.lt_or_le z 0 with hneg | hpos
  · rw [decide_eq_true hneg]
    simp only [Text.digitsValue_toDigits]
    omega
  · rw [decide_eq_false (by omega)]
    simp only [Text.digitsValue_toDigits]
    omega

theorem exists_value?_pointed (negative : Bool) {s : List Char} {width : Int} (h : IsDigits s)
    (hhead : s.head? ≠ some '0' ∨ width ≤ 1) (hwidth : width ≤ 18) :
    ∃ l n, Json.literal? negative (pointed s width) = some (l, []) ∧ l.value? = some n := by
  obtain ⟨whole, fraction, heq, hwhole, hfraction, hlength⟩ := Json.exists_pointed h hhead
  have hplace : (whole.length : Int) + 0 ≤ 288 := by omega
  obtain ⟨n, hn⟩ := Literal.exists_float?_of_le (l := ⟨negative, whole, some fraction, none⟩) hplace
  refine ⟨_, n, heq ▸ Json.literal?_pointed hwhole hfraction, ?_⟩
  rw [Literal.value?_of_point (.inl (by simp)), hn]

theorem exists_value?_scientific (negative : Bool) {n : Nat} {place : Int} (hword : n ≤ maxWord)
    (h : ∃ y, scale? (.ofNat n) place = some y) :
    ∃ l m, Json.literal? negative
        (scientific (Nat.toDigits 10 n) (place + (Nat.toDigits 10 n).length - 1)) = some (l, []) ∧
      l.value? = some m := by
  have hdigits := Json.isDigits_toDigits n
  have hvalue := Text.digitsValue_toDigits n
  obtain ⟨d, r, hcons⟩ := List.exists_cons_of_ne_nil (Nat.toDigits_ne_nil (n := n))
  rw [hcons] at hdigits hvalue ⊢
  generalize hz : place + ((d :: r).length : Int) - 1 = z
  obtain ⟨fraction, hfraction, hliteral⟩ := Json.literal?_scientific negative hdigits z
  generalize hl : Literal.mk negative [d] fraction (some (decide (z < 0), Nat.toDigits 10 z.natAbs)) = l
    at hliteral
  have hexponent : l.exponent = some (decide (z < 0), Nat.toDigits 10 z.natAbs) := by rw [← hl]
  have hsignificand : l.significand = (n, -(r.length : Int)) := by
    rw [← hvalue]
    refine Literal.significand_of_whole ?_ ?_ (hvalue.trans_le hword)
    · rw [← hl]
    · rw [← hl]
      exact hfraction
  have hplace : l.significand.2 + l.shift = place := by
    rw [Literal.shift_of_int hexponent, hsignificand]
    simp only [List.length_cons] at hz ⊢
    omega
  obtain ⟨m, hm⟩ := Literal.exists_float? (l := l) (by rwa [hplace, hsignificand])
  refine ⟨l, m, hliteral, ?_⟩
  rw [Literal.value?_of_point (.inr (by simp [hexponent])), hm]

/-- The text of a float is a literal that is a number, after its sign. -/
theorem exists_body (x : Binary64) :
    ∃ body l m, (float x).text = (if x.negative then '-' :: body else body) ∧
      Json.literal? x.negative body = some (l, []) ∧ l.value? = some m := by
  obtain ⟨hword, hzero⟩ := x.shortest_digits
  have hdigits := Json.isDigits_toDigits x.shortest.digits
  have hhead : (Nat.toDigits 10 x.shortest.digits).head? ≠ some '0' ∨
      x.shortest.exponent + (Nat.toDigits 10 x.shortest.digits).length ≤ 1 := by
    rcases Nat.eq_zero_or_pos x.shortest.digits with hn | hn
    · refine .inr ?_
      rw [hn, hzero hn]
      decide
    · exact .inl (Text.head?_toDigits (Nat.ne_of_gt hn))
  by_cases hx : x.isZero = true
  · have hdigit := Json.isDigits_zero
    have hone : (1 : Int) ≤ 1 := by decide
    obtain ⟨l, m, hl, hm⟩ := exists_value?_pointed x.negative hdigit (.inr hone) (by decide)
    refine ⟨pointed ['0'] 1, l, m, ?_, hl, hm⟩
    simp only [text, floatText, hx, if_true]
    rfl
  · by_cases hplain : -documentLayout.small < x.shortest.exponent +
          (Nat.toDigits 10 x.shortest.digits).length ∧
        x.shortest.exponent + (Nat.toDigits 10 x.shortest.digits).length ≤ documentLayout.large ∨
      (Nat.toDigits 10 x.shortest.digits).length = documentLayout.full ∧
        x.shortest.exponent + (Nat.toDigits 10 x.shortest.digits).length ≤
          documentLayout.fullLarge ∧ 0 ≤ x.shortest.exponent
    · have hwidth : x.shortest.exponent + (Nat.toDigits 10 x.shortest.digits).length ≤ 18 := by
        have hlarge : documentLayout.large = 16 := rfl
        have hfull : documentLayout.fullLarge = 18 := rfl
        omega
      obtain ⟨l, m, hl, hm⟩ := exists_value?_pointed x.negative hdigits hhead hwidth
      refine ⟨_, l, m, ?_, hl, hm⟩
      simp only [text, floatText, hx, if_pos hplain, Bool.false_eq_true, if_false]
    · obtain ⟨l, m, hl, hm⟩ := exists_value?_scientific x.negative hword
        x.exists_scale?_shortest
      refine ⟨_, l, m, ?_, hl, hm⟩
      simp only [text, floatText, hx, if_neg hplain, Bool.false_eq_true, if_false]

/-- **The text of a float is read as a number.** -/
theorem exists_next?_float (x : Binary64) :
    ∃ m, Json.Token.next? (float x).text = some (.num (some m), []) := by
  obtain ⟨body, l, m, htext, hl, hm⟩ := exists_body x
  refine ⟨m, ?_⟩
  rw [htext]
  cases hnegative : x.negative with
  | true =>
    rw [hnegative] at hl
    simp [Json.Token.next?_minus, hl, hm]
  | false =>
    rw [hnegative] at hl
    obtain ⟨c, t, rfl, hc⟩ := Json.head?_of_literal? hl
    simp [Json.Token.next?_of_isDigit hc, hl, hm]

/-- The number that the text of a number is read as. -/
def reread (n : Number) : Number :=
  match Json.Token.next? n.text with
  | some (.num (some m), _) => m
  | _ => n

/-- **The text of every number of a document is read as a number.** -/
theorem readsAs_reread {n : Number} (h : n.Fits) : n.ReadsAs n.reread := by
  have hsome : ∃ m, Json.Token.next? n.text = some (.num (some m), []) := by
    cases n with
    | int z => exact ⟨_, int_readsBack h⟩
    | float x => exact exists_next?_float x
  obtain ⟨m, hm⟩ := hsome
  have hreread : n.reread = m := by rw [reread, hm]
  rw [hreread]
  exact hm

end Number

end ExperimentKpi
