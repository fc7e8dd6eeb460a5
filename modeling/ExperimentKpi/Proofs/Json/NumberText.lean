/-
# Numbers read back from their text

A number that stands before a character that continues no number is read as if the text ended there
(`next?_append`). The text of an integer of a document is read as that integer
(`Number.int_readsBack`). A float need not be read as itself, since reading drops digits and rounds
more than once: `Number.ReadsBack` says of a number that it is, and `Number.ReadsAs` as what it is read.

Key definitions: `Json.Ends`, `Number.ReadsAs`, `Number.ReadsBack`, `Number.Fits`.
Key theorems: `Number.ReadsAs.next?_append`, `Number.int_readsBack`.
-/
import ExperimentKpi.Json.Token
import ExperimentKpi.Proofs.Text.Decimal
import Mathlib.Data.List.TakeWhile

namespace ExperimentKpi

namespace Json

/-- Whether a character can go on with a number. -/
def continuesNumber (c : Char) : Bool :=
  Text.isDigit c || c == '.' || c == 'e' || c == 'E'

/-- The text starts with nothing that can go on with a number. -/
def Ends (s : List Char) : Prop :=
  ∀ c ∈ s.head?, continuesNumber c = false

theorem ends_nil : Ends [] := nofun

theorem ends_cons {c : Char} {s : List Char} (h : continuesNumber c = false) : Ends (c :: s) := by
  intro d hd
  cases hd
  exact h

theorem takeWhile_append_of_ends {s rest : List Char} (h : Ends rest) :
    (s ++ rest).takeWhile Text.isDigit = s.takeWhile Text.isDigit ∧
      (s ++ rest).dropWhile Text.isDigit = s.dropWhile Text.isDigit ++ rest := by
  induction s with
  | nil =>
    cases rest with
    | nil => exact ⟨rfl, rfl⟩
    | cons c r =>
      have hc : Text.isDigit c = false := by
        have := h c rfl
        simp only [continuesNumber, Bool.or_eq_false_iff] at this
        exact this.1.1.1
      simp [hc]
  | cons c s ih =>
    cases hc : Text.isDigit c with
    | false => simp [hc]
    | true => simp [hc, ih]

variable {s rest r : List Char}

theorem digits?_append {digits : List Char} (hr : Ends rest) (h : digits? s = some (digits, r)) :
    digits? (s ++ rest) = some (digits, r ++ rest) := by
  obtain ⟨ht, hd⟩ := takeWhile_append_of_ends (s := s) hr
  simp only [digits?] at h ⊢
  rw [ht, hd]
  split at h
  · cases h
  · rename_i hne
    cases h
    rw [if_neg hne]

theorem whole?_append {digits : List Char} (hr : Ends rest) (h : whole? s = some (digits, r)) :
    whole? (s ++ rest) = some (digits, r ++ rest) := by
  rw [whole?, Option.filter_eq_some_iff] at h ⊢
  exact ⟨digits?_append hr h.1, h.2⟩

theorem fraction?_append {fraction : Option (List Char)} (hr : Ends rest)
    (h : fraction? s = some (fraction, r)) :
    fraction? (s ++ rest) = some (fraction, r ++ rest) := by
  cases s with
  | nil =>
    cases h
    cases rest with
    | nil => rfl
    | cons c t =>
      have hc : c ≠ '.' := by
        rintro rfl
        exact absurd (hr '.' rfl) (by decide)
      simp [fraction?, hc]
  | cons c t =>
    by_cases hc : c = '.'
    · subst hc
      simp only [fraction?, Option.map_eq_some_iff, Prod.exists, Prod.mk.injEq] at h
      obtain ⟨digits, r', hd, rfl, rfl⟩ := h
      simp [fraction?, digits?_append hr hd]
    · have hs : ∀ u : List Char, fraction? (c :: u) = some (none, c :: u) := by
        intro u
        simp [fraction?, hc]
      rw [hs] at h
      cases h
      exact hs (t ++ rest)

theorem exponent?_append {exponent : Option (Bool × List Char)} (hr : Ends rest)
    (h : exponent? s = some (exponent, r)) :
    exponent? (s ++ rest) = some (exponent, r ++ rest) := by
  cases s with
  | nil =>
    cases h
    cases rest with
    | nil => rfl
    | cons c t =>
      have hc : ¬ (c = 'e' ∨ c = 'E') := by
        rintro (rfl | rfl) <;> exact absurd (hr _ rfl) (by decide)
      simp [exponent?, hc]
  | cons c t =>
    by_cases hc : c = 'e' ∨ c = 'E'
    · simp only [exponent?, if_pos hc, List.cons_append] at h ⊢
      split at h
      · simp only [Option.map_eq_some_iff, Prod.exists, Prod.mk.injEq] at h
        obtain ⟨digits, r', hd, rfl, rfl⟩ := h
        simp [digits?_append hr hd]
      · simp only [Option.map_eq_some_iff, Prod.exists, Prod.mk.injEq] at h
        obtain ⟨digits, r', hd, rfl, rfl⟩ := h
        simp [digits?_append hr hd]
      · rename_i hplus hminus
        simp only [Option.map_eq_some_iff, Prod.exists, Prod.mk.injEq] at h
        obtain ⟨digits, r', hd, rfl, rfl⟩ := h
        cases t with
        | nil => simp [digits?] at hd
        | cons d t =>
          have hp : d ≠ '+' := fun he => hplus t (he ▸ rfl)
          have hm : d ≠ '-' := fun he => hminus t (he ▸ rfl)
          have hd' := digits?_append hr hd
          simp only [List.cons_append] at hd' ⊢
          simp [hp, hm, hd']
    · simp only [exponent?, if_neg hc, Option.some.injEq, Prod.mk.injEq] at h
      simp [exponent?, hc, ← h.1, ← h.2]

theorem literal?_append {negative : Bool} {l : Number.Literal} (hr : Ends rest)
    (h : literal? negative s = some (l, r)) :
    literal? negative (s ++ rest) = some (l, r ++ rest) := by
  simp only [literal?, Option.bind_eq_bind, Option.bind_eq_some_iff, Prod.exists] at h ⊢
  obtain ⟨whole, r₁, h₁, fraction, r₂, h₂, exponent, r₃, h₃, h⟩ := h
  cases h
  exact ⟨whole, _, whole?_append hr h₁, fraction, _, fraction?_append hr h₂, exponent, _,
    exponent?_append hr h₃, rfl⟩

/-! ### Numbers as tokens -/

/-- The head of a text that is read as a number without a sign is a digit. -/
theorem head?_of_literal? {negative : Bool} {l : Number.Literal}
    (h : literal? negative s = some (l, r)) : ∃ c t, s = c :: t ∧ Text.isDigit c = true := by
  simp only [literal?, Option.bind_eq_bind, Option.bind_eq_some_iff, Prod.exists] at h
  obtain ⟨whole, r₁, h₁, -⟩ := h
  rw [whole?, Option.filter_eq_some_iff] at h₁
  have hd := h₁.1
  cases s with
  | nil => simp [digits?] at hd
  | cons c t =>
    cases hc : Text.isDigit c with
    | false => simp [digits?, hc] at hd
    | true => exact ⟨c, t, rfl, hc⟩

/-- A text that starts with a digit is read as a number. -/
theorem Token.next?_of_isDigit {c : Char} (hc : Text.isDigit c = true) (t : List Char) :
    Token.next? (c :: t) =
      (literal? false (c :: t)).map fun (l, rest) => (.num l.value?, rest) := by
  unfold Token.next?
  split
  case h_12 => rfl
  all_goals
    rename_i heq
    obtain ⟨rfl, -⟩ := List.cons.inj heq
    exact absurd hc (by decide)

/-- A text that starts with a minus sign is read as a number. -/
theorem Token.next?_minus (t : List Char) :
    Token.next? ('-' :: t) = (literal? true t).map fun (l, rest) => (.num l.value?, rest) :=
  rfl

/-- A token that is a number comes from a literal, behind a minus sign or at once. -/
theorem Token.exists_of_next?_num {n : Option Number} (h : Token.next? s = some (.num n, r)) :
    (∃ t l, s = '-' :: t ∧ literal? true t = some (l, r) ∧ l.value? = n) ∨
      ∃ l, literal? false s = some (l, r) ∧ l.value? = n := by
  unfold Token.next? at h
  split at h
  case h_11 t =>
    simp only [Option.map_eq_some_iff, Prod.exists, Prod.mk.injEq, Token.num.injEq] at h
    obtain ⟨l, _, hl, hv, rfl⟩ := h
    exact .inl ⟨t, l, rfl, hl, hv⟩
  case h_12 =>
    simp only [Option.map_eq_some_iff, Prod.exists, Prod.mk.injEq, Token.num.injEq] at h
    obtain ⟨l, _, hl, hv, rfl⟩ := h
    exact .inr ⟨l, hl, hv⟩
  all_goals simp at h

theorem literal?_toDigits (negative : Bool) (n : Nat) :
    literal? negative (Nat.toDigits 10 n) = some (⟨negative, Nat.toDigits 10 n, none, none⟩, []) := by
  have hall : ∀ c ∈ Nat.toDigits 10 n, Text.isDigit c = true := fun _ =>
    Text.isDigit_of_mem_toDigits
  have hdigits : digits? (Nat.toDigits 10 n) = some (Nat.toDigits 10 n, []) := by
    simp [digits?, List.takeWhile_eq_self_iff.mpr hall, List.dropWhile_eq_nil_iff.mpr hall]
  have hwhole : whole? (Nat.toDigits 10 n) = some (Nat.toDigits 10 n, []) := by
    rw [whole?, Option.filter_eq_some_iff]
    refine ⟨hdigits, ?_⟩
    rcases Nat.eq_zero_or_pos n with rfl | hn
    · decide
    · have := Text.head?_toDigits (Nat.ne_of_gt hn)
      simp [this]
  simp [literal?, hwhole, fraction?, exponent?]

end Json

namespace Number

/-- The text of the number is read as a number. -/
def ReadsAs (n m : Number) : Prop :=
  Json.Token.next? n.text = some (.num (some m), [])

/-- The text of the number is read as the number. -/
def ReadsBack (n : Number) : Prop :=
  Json.Token.next? n.text = some (.num (some n), [])

/-- The number is one that documents have: an integer fits 64 bits, with a sign or without. -/
def Fits : Number → Prop
  | int z => -(int64Bound : Int) ≤ z ∧ z ≤ maxWord
  | float _ => True

/-- What follows a number that reads back does not change how it is read. -/
theorem ReadsAs.next?_append {n m : Number} (h : n.ReadsAs m) {rest : List Char}
    (hr : Json.Ends rest) : Json.Token.next? (n.text ++ rest) = some (.num (some m), rest) := by
  unfold ReadsAs at h
  generalize n.text = s at h ⊢
  rcases Json.Token.exists_of_next?_num h with ⟨t, l, rfl, hl, hv⟩ | ⟨l, hl, hv⟩
  · rw [List.cons_append, Json.Token.next?_minus, Json.literal?_append hr hl]
    simp only [Option.map_some, hv, List.nil_append]
  · obtain ⟨c, t, rfl, hc⟩ := Json.head?_of_literal? hl
    have hl' := Json.literal?_append hr hl
    rw [List.cons_append] at hl' ⊢
    rw [Json.Token.next?_of_isDigit hc, hl']
    simp only [Option.map_some, hv, List.nil_append]

/-- **The text of an integer is read as the integer.** -/
theorem int_readsBack {z : Int} (h : (int z).Fits) : (int z).ReadsBack := by
  have htext : (int z).text = (toString z).toList := rfl
  unfold ReadsBack
  obtain ⟨hlow, hhigh⟩ := h
  rcases Int.lt_or_le z 0 with hz | hz
  · rw [htext, Text.toDigits_of_neg hz]
    have hval : (⟨true, Nat.toDigits 10 z.natAbs, none, none⟩ : Literal).value? = some (int z) := by
      have hn : 0 < z.natAbs ∧ z.natAbs ≤ int64Bound := by omega
      have he : -(z.natAbs : Int) = z := by omega
      simp only [Literal.value?, Text.digitsValue_toDigits, hn, and_self, if_true, he]
    simp [Json.Token.next?_minus, Json.literal?_toDigits, hval]
  · rw [htext, Text.toDigits_of_nonneg hz]
    have hval : (⟨false, Nat.toDigits 10 z.natAbs, none, none⟩ : Literal).value? = some (int z) := by
      have hn : z.natAbs ≤ maxWord := by omega
      have he : (z.natAbs : Int) = z := by omega
      simp only [Literal.value?, Text.digitsValue_toDigits, hn, Bool.false_eq_true, if_false, if_true,
        he]
    obtain ⟨c, t, hc⟩ := List.exists_cons_of_ne_nil (Nat.toDigits_ne_nil (n := z.natAbs))
    have hdigit : Text.isDigit c = true :=
      Text.isDigit_of_mem_toDigits (hc ▸ List.mem_cons_self)
    have hl := Json.literal?_toDigits false z.natAbs
    rw [hc] at hl hval ⊢
    simp [Json.Token.next?_of_isDigit hdigit, hl, hval]

end Number

end ExperimentKpi
