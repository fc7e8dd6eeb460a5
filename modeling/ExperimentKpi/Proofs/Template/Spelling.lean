/-
# Words and their spelling

Words are written in a row with a blank between two of them, except inside parentheses and before the
argument of a filter; in a string literal every character stands behind a backslash. The words that
are read from such a text are those that were written (`words_spell`). The text neither starts nor
ends with a blank, and a closing brace stands in it only behind a backslash, so that it can stand
between any two delimiters.

Key definitions: `Word.text`, `Word.IsSpellable`, `spell`, `Guarded`.
Key theorems: `nextWord_text`, `words_spell`, `isTight_spell`, `guarded_spell`.
-/
import ExperimentKpi.Proofs.Text.Cutting
import ExperimentKpi.Proofs.Text.Decimal
import ExperimentKpi.Template.Word
import Mathlib.Data.List.Chain
import Mathlib.Data.List.TakeWhile

namespace ExperimentKpi

namespace Template

open Text (isBlank isDigit)

/-! ### Texts of words -/

/-- A word as it is written. -/
def Word.text : Word → List Char
  | name s => s.toList
  | str value => '\'' :: value.toList.flatMap (fun c => ['\\', c]) ++ ['\'']
  | int z => (toString z).toList
  | eq => ['=', '=']
  | ne => ['!', '=']
  | openParen => ['(']
  | closeParen => [')']
  | bar => ['|']

/-- The word can be written: a name consists of the characters of names and starts as names do, and
not with a digit; an integer is one of 64 bits. -/
def Word.IsSpellable : Word → Prop
  | name s => (∃ c ∈ s.toList.head?, isNameStart c = true ∧ isDigit c = false) ∧
      ∀ c ∈ s.toList, isNameChar c = true
  | int z => IsInt64 z
  | _ => True

/-- A text before which the word ends: it goes on with no name and no integer. -/
def Word.EndsBefore (rest : List Char) : Word → Prop
  | name _ | int _ => ∀ c ∈ rest.head?, isNameChar c = false
  | _ => True

theorem isNameStart_of_isDigit {c : Char} (h : isDigit c = true) : isNameStart c = true := by
  have hascii : c.toNat < 0x80 := by
    have : c ≤ '9' := by
      simp only [isDigit, Bool.and_eq_true, decide_eq_true_eq] at h
      exact h.2
    have : c.toNat ≤ 57 := this
    omega
  simp [isNameStart, Text.isAlphanumeric, hascii, h]

theorem isNameChar_of_isNameStart {c : Char} (h : isNameStart c = true) : isNameChar c = true := by
  rw [isNameChar, ← isNameStart, h, Bool.true_or]

theorem isBlank_of_isNameChar {c : Char} (h : isNameChar c = true) : isBlank c = false := by
  simp only [isNameChar, Bool.or_eq_true, beq_iff_eq] at h
  rcases h with (h | rfl) | rfl
  · exact Text.isBlank_of_isAlphanumeric h
  · decide
  · decide

/-- A string literal ends at its own quote. -/
theorem stringBody?_escaped (s rest : List Char) :
    stringBody? '\'' (s.flatMap (fun c => ['\\', c]) ++ '\'' :: rest) = some (s, rest) := by
  induction s with
  | nil => simp [stringBody?]
  | cons c s ih => simp [stringBody?, ih]

theorem startsInteger_of_ne {c : Char} (h : c ≠ '-') (r : List Char) :
    startsInteger (c :: r) = isDigit c := by
  unfold startsInteger
  split
  · rename_i heq
    exact absurd (List.cons.inj heq).1 h
  · rename_i heq
    rw [(List.cons.inj heq).1]
  · rename_i heq
    cases heq

/-- The characters that words other than names start with. -/
theorem ne_of_isNameStart {c : Char} (h : isNameStart c = true) :
    c ∉ ['(', ')', '|', '=', '!', '\'', '"', '-'] := by
  have hnone : ['(', ')', '|', '=', '!', '\'', '"', '-'].all (!isNameStart ·) = true := by decide
  intro hc
  have hc' := List.all_eq_true.mp hnone c hc
  rw [h] at hc'
  cases hc'

theorem nextWord_name {c : Char} {s rest : List Char} (hc : isNameStart c = true)
    (hd : isDigit c = false) (hs : ∀ d ∈ s, isNameChar d = true)
    (hr : ∀ d ∈ rest.head?, isNameChar d = false) :
    nextWord c (s ++ rest) = .ok (.name (String.ofList (c :: s)), rest) := by
  have hne := ne_of_isNameStart hc
  simp only [List.mem_cons, List.not_mem_nil, or_false, not_or] at hne
  obtain ⟨h1, h2, h3, h4, h5, h6, h7, h8⟩ := hne
  obtain ⟨htake, hdrop⟩ := Text.takeWhile_append_of_head hs hr
  simp [nextWord, h1, h2, h3, h4, h5, h6, h7, startsInteger_of_ne h8, hd, hc, htake, hdrop]

theorem integerWord_of_isInt64 {c : Char} {s rest : List Char} {z : Int} (hz : IsInt64 z)
    (htext : (toString z).toList = c :: s) (hs : ∀ d ∈ s, isDigit d = true)
    (hr : ∀ d ∈ rest.head?, isNameChar d = false) :
    integerWord c (s ++ rest) = .ok (.int z, rest) := by
  have hr' : ∀ d ∈ rest.head?, isDigit d = false := by
    intro d hd
    by_contra hdigit
    rw [Bool.not_eq_false] at hdigit
    exact absurd (isNameChar_of_isNameStart (isNameStart_of_isDigit hdigit))
      (by rw [hr d hd]; exact Bool.false_ne_true)
  obtain ⟨htake, hdrop⟩ := Text.takeWhile_append_of_head hs hr'
  have hvalue := Text.int64?_toString hz
  rw [htext] at hvalue
  simp [integerWord, htake, hdrop, hvalue]

theorem nextWord_int {z : Int} {rest : List Char} (hz : IsInt64 z)
    (hr : ∀ d ∈ rest.head?, isNameChar d = false) :
    ∃ c r, (toString z).toList ++ rest = c :: r ∧ isBlank c = false ∧
      nextWord c r = .ok (.int z, rest) := by
  have hdigits : ∀ d ∈ Nat.toDigits 10 z.natAbs, isDigit d = true := fun _ =>
    Text.isDigit_of_mem_toDigits
  obtain ⟨d, s, hds⟩ := List.exists_cons_of_ne_nil (Nat.toDigits_ne_nil (n := z.natAbs))
  have hd : isDigit d = true := hdigits d (hds ▸ List.mem_cons_self)
  rcases Int.lt_or_le z 0 with hneg | hpos
  · have htext := Text.toDigits_of_neg hneg
    refine ⟨'-', _, by rw [htext, List.cons_append], by decide, ?_⟩
    rw [← integerWord_of_isInt64 hz htext hdigits hr]
    simp [nextWord, hds, startsInteger, hd]
  · have htext := Text.toDigits_of_nonneg hpos
    have hstart := isNameStart_of_isDigit hd
    rw [hds] at htext hdigits
    refine ⟨d, _, by rw [htext, List.cons_append],
      isBlank_of_isNameChar (isNameChar_of_isNameStart hstart), ?_⟩
    rw [← integerWord_of_isInt64 hz htext (fun e he => hdigits e (List.mem_cons_of_mem _ he)) hr]
    have hne := ne_of_isNameStart hstart
    simp only [List.mem_cons, List.not_mem_nil, or_false, not_or] at hne
    obtain ⟨h1, h2, h3, h4, h5, h6, h7, h8⟩ := hne
    simp [nextWord, h1, h2, h3, h4, h5, h6, h7, startsInteger_of_ne h8, hd]

/-- A word is read from its text, wherever it ends. -/
theorem nextWord_text {w : Word} {rest : List Char} (hw : w.IsSpellable)
    (hr : w.EndsBefore rest) :
    ∃ c r, w.text ++ rest = c :: r ∧ isBlank c = false ∧ nextWord c r = .ok (w, rest) := by
  cases w with
  | name s =>
    obtain ⟨⟨c, hc, hstart, hdigit⟩, hall⟩ := hw
    obtain ⟨t, ht⟩ : ∃ t, s.toList = c :: t := List.head?_eq_some_iff.mp hc
    rw [ht] at hall
    refine ⟨c, t ++ rest, by rw [Word.text, ht, List.cons_append],
      isBlank_of_isNameChar (hall c List.mem_cons_self), ?_⟩
    rw [nextWord_name hstart hdigit (fun d hd => hall d (List.mem_cons_of_mem _ hd)) hr, ← ht,
      String.ofList_toList]
  | str value =>
    refine ⟨'\'', _, rfl, by decide, ?_⟩
    simp [nextWord, stringBody?_escaped]
  | int z => exact nextWord_int hw hr
  | eq => exact ⟨'=', _, rfl, by decide, by simp [nextWord]⟩
  | ne => exact ⟨'!', _, rfl, by decide, by simp [nextWord]⟩
  | openParen => exact ⟨'(', _, rfl, by decide, by simp [nextWord]⟩
  | closeParen => exact ⟨')', _, rfl, by decide, by simp [nextWord]⟩
  | bar => exact ⟨'|', _, rfl, by decide, by simp [nextWord]⟩

/-! ### Rows of words -/

/-- No blank stands after an opening parenthesis, before a closing one and between a filter and its
argument. -/
def unspaced : Word → Word → Bool
  | .openParen, _ => true
  | _, .closeParen => true
  | .name s, .openParen => s == "join" || s == "default"
  | _, _ => false

/-- The text of a row of words. -/
def spell : List Word → List Char
  | [] => []
  | [w] => w.text
  | w :: v :: r => w.text ++ (if unspaced w v then [] else [' ']) ++ spell (v :: r)

theorem Word.endsBefore_nil (w : Word) : w.EndsBefore [] := by
  cases w <;> simp [EndsBefore]

theorem Word.endsBefore_cons (w : Word) {c : Char} (h : isNameChar c = false) (s : List Char) :
    w.EndsBefore (c :: s) := by
  cases w <;> simp [EndsBefore, h]

/-- A row of words starts with the text of the first. -/
theorem spell_cons (v : Word) (r : List Word) : ∃ s, spell (v :: r) = v.text ++ s := by
  cases r with
  | nil => exact ⟨[], (List.append_nil _).symm⟩
  | cons w r => exact ⟨_, List.append_assoc ..⟩

/-- Every word of a row ends before the next. -/
theorem endsBefore_spell (w v : Word) (r : List Word) :
    w.EndsBefore ((if unspaced w v then [] else [' ']) ++ spell (v :: r)) := by
  obtain ⟨s, hs⟩ := spell_cons v r
  by_cases h : unspaced w v = true
  · rw [if_pos h, List.nil_append, hs]
    unfold unspaced at h
    split at h
    · trivial
    · exact w.endsBefore_cons (by decide) _
    · exact Word.endsBefore_cons _ (by decide) _
    · cases h
  · rw [if_neg h]
    exact w.endsBefore_cons (by decide) _

theorem words_of_nextWord {c : Char} {r rest : List Char} {w : Word} (hc : isBlank c = false)
    (h : nextWord c r = .ok (w, rest)) : words (c :: r) = (words rest).map (w :: ·) := by
  rw [words.eq_def]
  simp only [hc, Bool.false_eq_true, if_false]
  split
  · rename_i w' rest' h'
    rw [h] at h'
    cases h'
    rfl
  · rename_i e h'
    rw [h] at h'
    cases h'

theorem words_blank (s : List Char) : words (' ' :: s) = words s := by
  rw [words.eq_def]
  simp [show isBlank ' ' = true by decide]

/-- **The words of a text are those that it was written with.** -/
theorem words_spell : ∀ {ws : List Word}, (∀ w ∈ ws, w.IsSpellable) → words (spell ws) = .ok ws
  | [], _ => by rw [spell, words.eq_def]
  | [w], h => by
    obtain ⟨c, r, htext, hc, hnext⟩ := nextWord_text (h w List.mem_cons_self) w.endsBefore_nil
    rw [List.append_nil] at htext
    rw [spell, htext, words_of_nextWord hc hnext, words.eq_def]
    rfl
  | w :: v :: r, h => by
    have hrest := words_spell fun u hu => h u (List.mem_cons_of_mem w hu)
    obtain ⟨c, s, htext, hc, hnext⟩ :=
      nextWord_text (h w List.mem_cons_self) (endsBefore_spell w v r)
    rw [spell, List.append_assoc, htext, words_of_nextWord hc hnext]
    split
    · rw [List.nil_append, hrest]
      rfl
    · rw [List.singleton_append, words_blank, hrest]
      rfl

/-! ### Between delimiters -/

/-- A closing brace stands only behind a backslash, and not at the start. -/
def Guarded (s : List Char) : Prop :=
  s.IsChain (fun a b => b = '}' → a = '\\') ∧ ∀ c ∈ s.head?, c ≠ '}'

theorem guarded_nil : Guarded [] := ⟨.nil, nofun⟩

theorem Guarded.append {s t : List Char} (hs : Guarded s) (ht : Guarded t) : Guarded (s ++ t) := by
  refine ⟨List.isChain_append.mpr ⟨hs.1, ht.1, fun a _ b hb he => absurd he (ht.2 b hb)⟩, ?_⟩
  cases s with
  | nil => exact ht.2
  | cons c s => exact hs.2

theorem guarded_of_forall_ne {s : List Char} (h : ∀ c ∈ s, c ≠ '}') : Guarded s := by
  refine ⟨?_, fun c hc => h c (List.mem_of_mem_head? hc)⟩
  induction s with
  | nil => exact .nil
  | cons c s ih =>
    refine List.isChain_cons.mpr ⟨fun d hd he => ?_, ih fun d hd => h d (List.mem_cons_of_mem _ hd)⟩
    exact absurd he (h d (List.mem_cons_of_mem _ (List.mem_of_mem_head? hd)))

theorem guarded_of_all {s : List Char} (h : s.all (· != '}') = true) : Guarded s :=
  guarded_of_forall_ne fun c hc => bne_iff_ne.mp (List.all_eq_true.mp h c hc)

theorem Word.guarded_text {w : Word} (hw : w.IsSpellable) : Guarded w.text := by
  cases w with
  | name s =>
    refine guarded_of_forall_ne fun c hc he => ?_
    have := hw.2 c hc
    rw [he] at this
    exact absurd this (by decide)
  | str value =>
    have hbody : ∀ s : List Char, Guarded (s.flatMap fun c => ['\\', c]) := by
      intro s
      induction s with
      | nil => exact guarded_nil
      | cons c s ih =>
        rw [List.flatMap_cons]
        exact Guarded.append ⟨by simp, by simp⟩ ih
    have hquote : Guarded ['\''] := ⟨.singleton _, by simp⟩
    exact (hquote.append (hbody _)).append hquote
  | int z =>
    refine guarded_of_forall_ne fun c hc he => ?_
    have hdigits : ∀ d ∈ Nat.toDigits 10 z.natAbs, isDigit d = true := fun _ =>
      Text.isDigit_of_mem_toDigits
    subst he
    rcases Int.lt_or_le z 0 with hneg | hpos
    · rw [text, Text.toDigits_of_neg hneg] at hc
      exact absurd (hdigits '}' (by simpa using hc)) (by decide)
    · rw [text, Text.toDigits_of_nonneg hpos] at hc
      exact absurd (hdigits '}' hc) (by decide)
  | _ => exact guarded_of_all (by decide)

theorem guarded_spell : ∀ {ws : List Word}, (∀ w ∈ ws, w.IsSpellable) → Guarded (spell ws)
  | [], _ => guarded_nil
  | [w], h => Word.guarded_text (h w List.mem_cons_self)
  | w :: v :: r, h => by
    have hrest := guarded_spell fun u hu => h u (List.mem_cons_of_mem w hu)
    refine ((Word.guarded_text (h w List.mem_cons_self)).append ?_).append hrest
    split
    · exact guarded_nil
    · exact ⟨.singleton _, by simp⟩

theorem Word.text_ne_nil {w : Word} (hw : w.IsSpellable) : w.text ≠ [] := by
  obtain ⟨c, r, htext, -⟩ := nextWord_text hw w.endsBefore_nil
  rw [List.append_nil] at htext
  rw [htext]
  exact List.cons_ne_nil _ _

theorem Word.isTight_text {w : Word} (hw : w.IsSpellable) : Text.IsTight w.text := by
  refine ⟨?_, ?_⟩
  · obtain ⟨c, r, htext, hc, -⟩ := nextWord_text hw w.endsBefore_nil
    rw [List.append_nil] at htext
    rw [htext]
    rintro d ⟨⟩
    exact hc
  · cases w with
    | name s => exact fun c hc => isBlank_of_isNameChar (hw.2 c (List.mem_of_getLast? hc))
    | str value =>
      intro c hc
      simp only [text, List.getLast?_append, List.getLast?_singleton, Option.some_or] at hc
      cases hc
      decide
    | int z =>
      intro c hc
      have hdigits : ∀ d ∈ Nat.toDigits 10 z.natAbs, isBlank d = false := fun d hd =>
        isBlank_of_isNameChar (isNameChar_of_isNameStart
          (isNameStart_of_isDigit (Text.isDigit_of_mem_toDigits hd)))
      have hmem := List.mem_of_getLast? hc
      rcases Int.lt_or_le z 0 with hneg | hpos
      · rw [text, Text.toDigits_of_neg hneg, List.mem_cons] at hmem
        rcases hmem with rfl | hmem
        · decide
        · exact hdigits c hmem
      · rw [text, Text.toDigits_of_nonneg hpos] at hmem
        exact hdigits c hmem
    | _ =>
      rintro c ⟨⟩
      decide

theorem spell_ne_nil {ws : List Word} (h : ∀ w ∈ ws, w.IsSpellable) (hne : ws ≠ []) :
    spell ws ≠ [] := by
  obtain ⟨w, r, rfl⟩ := List.exists_cons_of_ne_nil hne
  obtain ⟨s, hs⟩ := spell_cons w r
  rw [hs]
  exact List.append_ne_nil_of_left_ne_nil (Word.text_ne_nil (h w List.mem_cons_self)) s

theorem isTight_spell : ∀ {ws : List Word}, (∀ w ∈ ws, w.IsSpellable) → Text.IsTight (spell ws)
  | [], _ => ⟨nofun, nofun⟩
  | [w], h => Word.isTight_text (h w List.mem_cons_self)
  | w :: v :: r, h => by
    have hw := h w List.mem_cons_self
    have hrest : ∀ u ∈ v :: r, u.IsSpellable := fun u hu => h u (List.mem_cons_of_mem w hu)
    exact (Word.isTight_text hw).append (isTight_spell hrest) (Word.text_ne_nil hw)
      (spell_ne_nil hrest (List.cons_ne_nil _ _)) _

end Template

end ExperimentKpi
