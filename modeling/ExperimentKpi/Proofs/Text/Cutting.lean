/-
# Cutting and trimming

A text that was put together from parts without separators falls into these parts again
(`splitAt_append_cons`, `splitAt_of_forall`), and a text that falls into parts was put together from
them (`exists_of_splitAt`, `intercalate_splitAt`). Letters and digits are no blanks, and a text that neither
starts nor ends with a blank is what trimming leaves of it with blanks around it (`trim_blanks`).

Key definitions: `Text.IsTight`.
Key theorems: `Text.splitAt_append_cons`, `Text.exists_of_splitAt`, `Text.isBlank_of_isAlphanumeric`, `Text.trim_blanks`.
-/
import ExperimentKpi.Text.Alphanumeric
import ExperimentKpi.Text.Blank

namespace ExperimentKpi.Text

/-! ### Cutting -/

section

variable {p : Char → Bool} {s : List Char}

theorem splitAt_of_forall (h : ∀ c ∈ s, p c = false) : splitAt p s = [s] := by
  induction s with
  | nil => rfl
  | cons c s ih =>
    simp [splitAt, h c List.mem_cons_self, ih fun d hd => h d (List.mem_cons_of_mem _ hd)]

theorem splitAt_append_cons (h : ∀ c ∈ s, p c = false) {c : Char} (hc : p c = true)
    (rest : List Char) : splitAt p (s ++ c :: rest) = s :: splitAt p rest := by
  induction s with
  | nil => simp [splitAt, hc]
  | cons d s ih =>
    simp [splitAt, h d List.mem_cons_self, ih fun e he => h e (List.mem_cons_of_mem _ he)]

/-- The first part of a text that was cut: it is the whole text, or the other parts are those of the
text after the first cut. -/
theorem exists_of_splitAt {w : List Char} {ws : List (List Char)} (h : splitAt p s = w :: ws) :
    (∀ c ∈ w, p c = false) ∧
      (ws = [] ∧ s = w ∨ ∃ c t, p c = true ∧ s = w ++ c :: t ∧ splitAt p t = ws) := by
  induction s generalizing w with
  | nil =>
    obtain ⟨rfl, rfl⟩ := List.cons.inj h
    exact ⟨fun c hc => (List.not_mem_nil hc).elim, .inl ⟨rfl, rfl⟩⟩
  | cons c s ih =>
    rw [splitAt] at h
    by_cases hc : p c = true
    · rw [if_pos hc] at h
      obtain ⟨rfl, rfl⟩ := List.cons.inj h
      exact ⟨fun d hd => (List.not_mem_nil hd).elim, .inr ⟨c, s, hc, rfl, rfl⟩⟩
    · rw [if_neg hc] at h
      obtain ⟨v, vs, hparts⟩ := List.exists_cons_of_ne_nil (splitAt_ne_nil p s)
      rw [hparts] at h
      obtain ⟨rfl, rfl⟩ := List.cons.inj h
      obtain ⟨hv, hrest⟩ := ih hparts
      refine ⟨fun d hd => ?_, ?_⟩
      · rcases List.mem_cons.mp hd with rfl | hd
        · exact Bool.eq_false_iff.mpr hc
        · exact hv d hd
      · rcases hrest with ⟨rfl, rfl⟩ | ⟨d, t, hd, rfl, ht⟩
        · exact .inl ⟨rfl, rfl⟩
        · exact .inr ⟨d, t, hd, rfl, ht⟩

/-- The parts between the occurrences of a character, joined by it, are the text again. -/
theorem intercalate_splitAt (c : Char) (s : List Char) :
    List.intercalate [c] (splitAt (· == c) s) = s := by
  induction s with
  | nil => rfl
  | cons d s ih =>
    obtain ⟨v, vs, hparts⟩ := List.exists_cons_of_ne_nil (splitAt_ne_nil (· == c) s)
    rw [hparts] at ih
    rw [splitAt, hparts]
    by_cases hd : (d == c) = true
    · rw [if_pos hd, List.intercalate_cons_cons, ih, beq_iff_eq.mp hd]
      rfl
    · rw [if_neg hd]
      cases vs with
      | nil => rw [← ih, List.intercalate_singleton, List.intercalate_singleton]
      | cons w ws =>
        rw [← ih, List.intercalate_cons_cons, List.intercalate_cons_cons]
        rfl

theorem cutAt?_of_forall (h : ∀ c ∈ s, p c = false) : cutAt? p s = none := by
  induction s with
  | nil => rfl
  | cons c s ih =>
    simp [cutAt?, h c List.mem_cons_self, ih fun d hd => h d (List.mem_cons_of_mem _ hd)]

theorem cutAt?_append_cons (h : ∀ c ∈ s, p c = false) {c : Char} (hc : p c = true)
    (rest : List Char) : cutAt? p (s ++ c :: rest) = some (s, rest) := by
  induction s with
  | nil => simp [cutAt?, hc]
  | cons d s ih =>
    simp [cutAt?, h d List.mem_cons_self, ih fun e he => h e (List.mem_cons_of_mem _ he)]

/-- A text falls into the run of characters at its front and the rest. -/
theorem takeWhile_append_of_head {rest : List Char} (hs : ∀ c ∈ s, p c = true)
    (hr : ∀ c ∈ rest.head?, p c = false) :
    (s ++ rest).takeWhile p = s ∧ (s ++ rest).dropWhile p = rest := by
  rw [List.takeWhile_append_of_pos hs, List.dropWhile_append_of_pos hs]
  cases rest with
  | nil => simp
  | cons c r => simp [hr c rfl]

end

/-! ### Blanks -/

/-- The numbers of the blanks. -/
def blankNumbers : List Nat :=
  [9, 10, 11, 12, 13, 0x20, 0x85, 0xa0, 0x1680, 0x2000, 0x2001, 0x2002, 0x2003, 0x2004, 0x2005,
    0x2006, 0x2007, 0x2008, 0x2009, 0x200a, 0x2028, 0x2029, 0x202f, 0x205f, 0x3000]

theorem mem_blankNumbers {c : Char} (h : isBlank c = true) : c.toNat ∈ blankNumbers := by
  unfold isBlank at h
  generalize c.toNat = n at h
  simp only [Bool.or_eq_true, Bool.and_eq_true, decide_eq_true_eq, beq_iff_eq] at h
  rcases h with (((((((((h | h) | h) | h) | h) | h) | h) | h) | h) | h) | h
  all_goals
    simp only [blankNumbers, List.mem_cons, List.not_mem_nil, or_false]
    omega

/-- Between neighbouring bounds membership does not change. -/
theorem withinBounds_of_gap {bounds : List Nat} {low high n : Nat} (hlow : low ≤ n) (hhigh : n < high)
    (hgap : ∀ b ∈ (bounds.dropWhile (· ≤ low)).head?, high ≤ b) :
    withinBounds bounds n = withinBounds bounds low := by
  have hsame : bounds.takeWhile (· ≤ n) = bounds.takeWhile (· ≤ low) := by
    induction bounds with
    | nil => rfl
    | cons b bounds ih =>
      by_cases hb : b ≤ low
      · have hn : b ≤ n := Nat.le_trans hb hlow
        simp only [List.dropWhile_cons, hb, decide_true, if_true] at hgap
        simp only [List.takeWhile_cons, hb, hn, decide_true, if_true, ih hgap]
      · simp only [List.dropWhile_cons, hb, decide_false, Bool.false_eq_true, if_false] at hgap
        have hn : ¬ b ≤ n := Nat.not_le.mpr (Nat.lt_of_lt_of_le hhigh (hgap b rfl))
        simp only [List.takeWhile_cons, hb, hn, decide_false, Bool.false_eq_true, if_false]
  rw [withinBounds, hsame, withinBounds]

/-- Where the blanks beyond ASCII lie between the bounds of letters and digits. -/
def blankGaps : List (Nat × Nat) :=
  [(0x7b, 0xaa), (0x1680, 0x1681), (0x2000, 0x2070), (0x3000, 0x3005)]

/-- Letters and digits are no blanks. -/
theorem isBlank_of_isAlphanumeric {c : Char} (h : isAlphanumeric c = true) : isBlank c = false := by
  have hascii : ∀ n ∈ blankNumbers, n < 0x80 → isAlphanumeric (Char.ofNat n) = false := by
    decide +kernel
  have hbeyond : ∀ n ∈ blankNumbers, ¬ n < 0x80 → ∃ g ∈ blankGaps, g.1 ≤ n ∧ n < g.2 := by
    decide +kernel
  have hgaps : ∀ g ∈ blankGaps, withinBounds alphanumericBounds g.1 = false ∧
      ∀ b ∈ (alphanumericBounds.dropWhile (· ≤ g.1)).head?, g.2 ≤ b := by
    decide +kernel
  cases hb : isBlank c with
  | false => rfl
  | true =>
    have hn := mem_blankNumbers hb
    by_cases hlow : c.toNat < 0x80
    · have hnot := hascii _ hn hlow
      rw [Char.ofNat_toNat, h] at hnot
      cases hnot
    · obtain ⟨g, hg, hfrom, hto⟩ := hbeyond _ hn hlow
      obtain ⟨hout, hgap⟩ := hgaps g hg
      rw [isAlphanumeric, if_neg hlow, withinBounds_of_gap hfrom hto hgap, hout] at h
      cases h

/-- The text starts and ends with no blank. -/
def IsTight (s : List Char) : Prop :=
  (∀ c ∈ s.head?, isBlank c = false) ∧ ∀ c ∈ s.getLast?, isBlank c = false

theorem IsTight.append {s t : List Char} (hs : IsTight s) (ht : IsTight t) (hs' : s ≠ [])
    (ht' : t ≠ []) (u : List Char) : IsTight (s ++ u ++ t) := by
  obtain ⟨c, r, rfl⟩ := List.exists_cons_of_ne_nil hs'
  refine ⟨hs.1, fun d hd => ht.2 d ?_⟩
  rwa [List.getLast?_append, List.getLast?_eq_some_getLast ht', Option.some_or,
    ← List.getLast?_eq_some_getLast ht'] at hd

theorem trimStart_of_head {s : List Char} (h : ∀ c ∈ s.head?, isBlank c = false) :
    trimStart s = s := by
  cases s with
  | nil => rfl
  | cons c s => simp [trimStart, h c rfl]

theorem trimEnd_of_getLast {s : List Char} (h : ∀ c ∈ s.getLast?, isBlank c = false) :
    trimEnd s = s := by
  have hreverse := trimStart_of_head fun c hc => h c (by rwa [← List.head?_reverse])
  rw [trimEnd, ← trimStart, hreverse, List.reverse_reverse]

theorem trim_of_isTight {s : List Char} (h : IsTight s) : trim s = s := by
  rw [trim, trimStart_of_head h.1, trimEnd_of_getLast h.2]

/-- Blanks around a text without any at its ends are trimmed. -/
theorem trim_blanks {s : List Char} (h : IsTight s) : trim (' ' :: s ++ [' ']) = s := by
  have hblank : isBlank ' ' = true := by decide
  have hend : trimEnd (s ++ [' ']) = trimEnd s := by simp [trimEnd, hblank]
  cases s with
  | nil => decide
  | cons c s =>
    have hc := h.1 c rfl
    have hstart : trimStart (' ' :: (c :: s) ++ [' ']) = c :: s ++ [' '] := by
      simp [trimStart, hblank, hc]
    rw [trim, hstart, hend, trimEnd_of_getLast h.2]

end ExperimentKpi.Text
