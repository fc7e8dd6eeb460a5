/-
# Expressions as words

Operands, filters and conditions as the words that spell them. A condition stands in parentheses where
it binds more weakly than its place asks for: the levels of places are 0 for alternatives, 1 for
conjunctions and 2 for what `not` takes. The words of an output or of a condition are read as that
output (`output_words`) or condition (`condition_words`); for conditions every level is read back at
once, since parentheses lead from the last level to the first.

Key definitions: `Path.ofWords`, `Operand.words`, `Output.words`, `Cond.words`, `Cond.nesting`, and
`IsPrintable` for each.
Key theorems: `Operand.words_eq_singleton`, `output_words`, `Cond.reads`, `condition_words`,
`Output.ofText_spell`, `Cond.ofText_spell`.
-/
import ExperimentKpi.Proofs.Template.Spelling
import ExperimentKpi.Template.Expression

namespace ExperimentKpi.Template

open Text (isDigit)

/-! ### Paths -/

/-- One or more letters, digits and underscores. -/
def IsNameWord (s : List Char) : Prop :=
  s ≠ [] ∧ ∀ c ∈ s, isNameStart c = true

/-- A word that starts with no digit. -/
def IsName (s : List Char) : Prop :=
  IsNameWord s ∧ ∀ c ∈ s.head?, isDigit c = false

instance (s : List Char) : Decidable (IsNameWord s) :=
  decidable_of_iff (s ≠ [] ∧ s.all isNameStart = true) (by rw [List.all_eq_true, IsNameWord])

instance (s : List Char) : Decidable (IsName s) :=
  decidable_of_iff (IsNameWord s ∧ s.head?.all (!isDigit ·) = true)
    (by cases s <;> simp [IsName])

/-- A word with more words behind dots. -/
def dotted (root : List Char) (steps : List (List Char)) : List Char :=
  root ++ steps.flatMap fun s => '.' :: s

/-- The step that a word is: words of digits are indices, if these are numbers of 64 bits. -/
def Segment.ofWord (s : List Char) : Segment :=
  if s.all isDigit = true ∧ Text.digitsValue s < wordSize then .index (Text.digitsValue s)
  else .key (String.ofList s)

/-- The path that words with dots between them spell. -/
def Path.ofWords (root : List Char) (steps : List (List Char)) : Path :=
  ⟨String.ofList (dotted root steps), String.ofList root, steps.map Segment.ofWord⟩

/-- The name means something of its own. -/
def isReserved (name : String) : Bool :=
  (literalName? name).isSome || isKeyword name

/-- The path is spelled by words, the first of which is a name, and as a whole it is not reserved. -/
def Path.IsPrintable (p : Path) : Prop :=
  (∃ root steps, IsName root ∧ (∀ s ∈ steps, IsNameWord s) ∧ p = Path.ofWords root steps) ∧
    isReserved p.source = false

theorem Path.isPrintable_ofWords {root : List Char} {steps : List (List Char)} (hr : IsName root)
    (hs : ∀ s ∈ steps, IsNameWord s) (h : isReserved (String.ofList (dotted root steps)) = false) :
    (ofWords root steps).IsPrintable :=
  ⟨⟨root, steps, hr, hs, rfl⟩, h⟩

theorem IsNameWord.not_mem_dot {s : List Char} (h : IsNameWord s) : '.' ∉ s :=
  fun hdot => absurd (h.2 _ hdot) (by decide)

/-- Parts without dots fall apart again. -/
theorem splitAt_dotted {root : List Char} {steps : List (List Char)}
    (h : ∀ s ∈ root :: steps, '.' ∉ s) :
    Text.splitAt (· == '.') (dotted root steps) = root :: steps := by
  have hdot : ∀ s ∈ root :: steps, ∀ c ∈ s, (c == '.') = false :=
    fun s hs c hc => beq_false_of_ne fun he => h s hs (he ▸ hc)
  induction steps generalizing root with
  | nil => simp [dotted, Text.splitAt_of_forall (hdot root List.mem_cons_self)]
  | cons s steps ih =>
    have hrest := ih (fun t ht => h t (List.mem_cons_of_mem _ ht))
      fun t ht => hdot t (List.mem_cons_of_mem _ ht)
    have heq : dotted root (s :: steps) = root ++ '.' :: dotted s steps := by simp [dotted]
    rw [heq, Text.splitAt_append_cons (hdot root List.mem_cons_self) (beq_self_eq_true _), hrest]

/-- A part of a path that is a word is the step that the word is. -/
theorem Segment.ofText_of_isNameWord {s : List Char} (h : IsNameWord s) : ofText s = ofWord s := by
  obtain ⟨c, r, rfl⟩ := List.exists_cons_of_ne_nil h.1
  have hplus : c ≠ '+' := by
    rintro rfl
    exact absurd (h.2 '+' List.mem_cons_self) (by decide)
  have hword : Text.word? (c :: r) = (Text.natural? (c :: r)).filter (· < wordSize) := by
    simp [Text.word?, Text.unsigned?, hplus]
  rw [ofText, hword, ofWord, Text.natural?]
  by_cases hdigits : (c :: r).all isDigit = true
  · by_cases hbound : Text.digitsValue (c :: r) < wordSize
    · simp [Option.filter, hdigits, hbound]
    · simp [Option.filter, hdigits, hbound]
  · simp [hdigits]

theorem Segment.ofWord_of_isName {s : List Char} (h : IsName s) :
    ofWord s = .key (String.ofList s) := by
  obtain ⟨⟨hne, -⟩, hdigit⟩ := h
  obtain ⟨c, r, rfl⟩ := List.exists_cons_of_ne_nil hne
  rw [ofWord, if_neg]
  rintro ⟨hall, -⟩
  have hc := List.all_eq_true.mp hall c List.mem_cons_self
  rw [hdigit c rfl] at hc
  cases hc

/-- The spelling of a path is read as the path. -/
theorem Path.ofText_dotted {root : List Char} {steps : List (List Char)} (hr : IsName root)
    (hs : ∀ s ∈ steps, IsNameWord s) : Path.ofText (dotted root steps) = .ok (.ofWords root steps) := by
  have hempty : (root :: steps).any List.isEmpty = false := by
    rw [List.any_eq_false]
    intro s hmem
    rw [List.isEmpty_iff]
    rcases List.mem_cons.mp hmem with rfl | hmem
    · exact hr.1.1
    · exact (hs s hmem).1
  have hroot : Segment.ofText root = .key (String.ofList root) :=
    (Segment.ofText_of_isNameWord hr.1).trans (Segment.ofWord_of_isName hr)
  have hsteps : steps.map Segment.ofText = steps.map Segment.ofWord :=
    List.map_congr_left fun s hmem => Segment.ofText_of_isNameWord (hs s hmem)
  have hdots : ∀ s ∈ root :: steps, '.' ∉ s :=
    List.forall_mem_cons.mpr ⟨hr.1.not_mem_dot, fun s hmem => (hs s hmem).not_mem_dot⟩
  simp only [Path.ofText, splitAt_dotted hdots, hempty, Bool.false_eq_true, if_false,
    List.map_cons, hroot, hsteps]
  rfl

theorem Path.ofText_source {p : Path} (h : p.IsPrintable) : Path.ofText p.source.toList = .ok p := by
  obtain ⟨⟨root, steps, hr, hs, rfl⟩, -⟩ := h
  rw [ofWords, String.toList_ofList]
  exact Path.ofText_dotted hr hs

theorem Path.isSpellable_name {p : Path} (h : p.IsPrintable) : (Word.name p.source).IsSpellable := by
  obtain ⟨⟨root, steps, ⟨hr, hdigit⟩, hs, rfl⟩, -⟩ := h
  obtain ⟨c, r, rfl⟩ := List.exists_cons_of_ne_nil hr.1
  refine ⟨⟨c, by simp [ofWords, dotted], hr.2 c List.mem_cons_self, hdigit c rfl⟩, fun d hd => ?_⟩
  simp only [ofWords, dotted, String.toList_ofList, List.mem_append, List.mem_flatMap,
    List.mem_cons] at hd
  rcases hd with hd | ⟨s, hmem, rfl | hd⟩
  · exact isNameChar_of_isNameStart (hr.2 d (List.mem_cons.mpr hd))
  · decide
  · exact isNameChar_of_isNameStart ((hs s hmem).2 d hd)

/-! ### Operands -/

/-- An operand as words. -/
def Operand.words : Operand → List Word
  | path p => [.name p.source]
  | literal .null => [.name "null"]
  | literal (.bool true) => [.name "true"]
  | literal (.bool false) => [.name "false"]
  | literal (.str s) => [.str s]
  | literal (.num (.int z)) => [.int z]
  | literal _ => []

/-- The operand can be written: a path that can, or a literal that is null, a truth value, a text or an
integer of 64 bits. -/
def Operand.IsPrintable : Operand → Prop
  | path p => p.IsPrintable
  | literal .null | literal (.bool _) | literal (.str _) => True
  | literal (.num (.int z)) => IsInt64 z
  | literal _ => False

/-- The names that expressions are written with besides those of paths. -/
def ownNames : List String :=
  ["null", "true", "false", "and", "or", "not", "in", "lower", "upper", "length", "join", "default"]

theorem isSpellable_of_mem_ownNames {s : String} (h : s ∈ ownNames) :
    (Word.name s).IsSpellable := by
  simp only [ownNames, List.mem_cons, List.not_mem_nil, or_false] at h
  rcases h with rfl | rfl | rfl | rfl | rfl | rfl | rfl | rfl | rfl | rfl | rfl | rfl <;>
    exact ⟨⟨_, rfl, by decide, by decide⟩, List.all_eq_true.mp (by decide)⟩

/-- A printable operand is one word, which opens neither a negation nor a parenthesis and is read as
the operand. -/
theorem Operand.words_eq_singleton {x : Operand} (h : x.IsPrintable) :
    ∃ w : Word, x.words = [w] ∧ w.IsSpellable ∧ (w ≠ .name "not" ∧ w ≠ .openParen) ∧
      ∀ rest, operand (w :: rest) = .ok (x, rest) := by
  cases x with
  | path p =>
    obtain ⟨hliteral, hkeyword⟩ : literalName? p.source = none ∧ isKeyword p.source = false := by
      simpa [isReserved] using h.2
    have hnot : p.source ≠ "not" := by
      intro he
      rw [he] at hkeyword
      exact absurd hkeyword (by decide)
    refine ⟨.name p.source, rfl, Path.isSpellable_name h, by simp [hnot], fun rest => ?_⟩
    simp [operand, nameOperand, hliteral, hkeyword, Path.ofText_source h, Except.map]
  | literal v =>
    have hname : ∀ s ∈ ownNames, (Word.name s).IsSpellable := fun _ => isSpellable_of_mem_ownNames
    cases v with
    | null => exact ⟨_, rfl, hname "null" (by decide), by simp, fun _ => rfl⟩
    | bool value =>
      cases value
      · exact ⟨_, rfl, hname "false" (by decide), by simp, fun _ => rfl⟩
      · exact ⟨_, rfl, hname "true" (by decide), by simp, fun _ => rfl⟩
    | str value => exact ⟨_, rfl, trivial, by simp, fun _ => rfl⟩
    | num n =>
      cases n with
      | int z => exact ⟨_, rfl, h, by simp, fun _ => rfl⟩
      | float => exact False.elim h
    | arr | obj => exact False.elim h

theorem operand_words {x : Operand} (h : x.IsPrintable) (rest : List Word) :
    operand (x.words ++ rest) = .ok (x, rest) := by
  obtain ⟨w, hw, -, -, hread⟩ := Operand.words_eq_singleton h
  rw [hw, List.singleton_append, hread]

theorem Operand.isSpellable_words {x : Operand} (h : x.IsPrintable) :
    ∀ w ∈ x.words, w.IsSpellable := by
  obtain ⟨w, hw, hspell, -⟩ := words_eq_singleton h
  rw [hw]
  exact List.forall_mem_singleton.mpr hspell

theorem Operand.words_ne_nil {x : Operand} (h : x.IsPrintable) : x.words ≠ [] := by
  obtain ⟨w, hw, -⟩ := words_eq_singleton h
  rw [hw]
  exact List.cons_ne_nil _ _

/-! ### Outputs -/

/-- A filter as words. -/
def Filter.words : Filter → List Word
  | lower => [.name "lower"]
  | upper => [.name "upper"]
  | length => [.name "length"]
  | join separator => [.name "join", .openParen, .str separator, .closeParen]
  | fallback text => [.name "default", .openParen, .str text, .closeParen]

/-- An output as words. -/
def Output.words (o : Output) : List Word :=
  o.operand.words ++ o.filters.flatMap fun f => .bar :: f.words

/-- The output can be written: its operand can. -/
def Output.IsPrintable (o : Output) : Prop := o.operand.IsPrintable

theorem filter_words (f : Filter) (rest : List Word) : filter (f.words ++ rest) = .ok (f, rest) := by
  cases f <;> simp [Filter.words, filter, filterArgument, Except.map]

theorem filters_words (fs : List Filter) :
    filters (fs.flatMap fun f => .bar :: f.words) = .ok (fs, []) := by
  induction fs with
  | nil => rw [List.flatMap_nil, filters.eq_def]
  | cons f fs ih =>
    have hf := filter_words f (fs.flatMap fun f => .bar :: f.words)
    rw [List.flatMap_cons, List.cons_append, filters.eq_def]
    simp only
    split
    · rename_i f' rest h
      rw [hf] at h
      cases h
      rw [ih]
      rfl
    · rename_i e h
      rw [hf] at h
      cases h

/-- **The words of an output are read as the output.** -/
theorem output_words {o : Output} (h : o.IsPrintable) : output o.words = .ok o := by
  simp only [output, Output.words, operand_words h, bind, Except.bind, filters_words]
  rfl

theorem Filter.isSpellable_words (f : Filter) : ∀ w ∈ f.words, w.IsSpellable := by
  have hname : ∀ s ∈ ownNames, (Word.name s).IsSpellable := fun _ => isSpellable_of_mem_ownNames
  cases f <;> simp only [words, List.forall_mem_cons]
  · exact ⟨hname "join" (by decide), trivial, trivial, trivial, nofun⟩
  · exact ⟨hname "lower" (by decide), nofun⟩
  · exact ⟨hname "upper" (by decide), nofun⟩
  · exact ⟨hname "length" (by decide), nofun⟩
  · exact ⟨hname "default" (by decide), trivial, trivial, trivial, nofun⟩

theorem Output.isSpellable_words {o : Output} (h : o.IsPrintable) :
    ∀ w ∈ o.words, w.IsSpellable := by
  intro w hw
  rcases List.mem_append.mp hw with hw | hw
  · exact Operand.isSpellable_words h w hw
  · obtain ⟨f, -, hw⟩ := List.mem_flatMap.mp hw
    rcases List.mem_cons.mp hw with rfl | hw
    · trivial
    · exact Filter.isSpellable_words f w hw

/-! ### Conditions -/

/-- A comparison as words. -/
def Comparison.words : Comparison → List Word
  | eq => [.eq]
  | ne => [.ne]
  | isIn => [.name "in"]
  | notIn => [.name "not", .name "in"]

/-- Words in parentheses, if these are needed. -/
def grouped (needed : Bool) (ws : List Word) : List Word :=
  if needed then .openParen :: ws ++ [.closeParen] else ws

/-- A condition as words at a place of the given level. -/
def Cond.words : Nat → Cond → List Word
  | _, operand x => x.words
  | _, compare left op right => left.words ++ op.words ++ right.words
  | _, not c => .name "not" :: words 2 c
  | level, and left right => grouped (1 < level) (words 1 left ++ .name "and" :: words 2 right)
  | level, or left right => grouped (0 < level) (words 0 left ++ .name "or" :: words 1 right)

/-- How deep `not` and the parentheses that are written nest at a place of the given level. -/
def Cond.nesting : Nat → Cond → Nat
  | _, operand _ | _, compare .. => 0
  | _, not c => nesting 2 c + 1
  | level, and left right => max (nesting 1 left) (nesting 2 right) + if 1 < level then 1 else 0
  | level, or left right => max (nesting 0 left) (nesting 1 right) + if 0 < level then 1 else 0

/-- The operands of the condition can be written. -/
def Cond.IsPrintable : Cond → Prop
  | operand x => x.IsPrintable
  | compare left _ right => left.IsPrintable ∧ right.IsPrintable
  | not c => c.IsPrintable
  | and left right | or left right => left.IsPrintable ∧ right.IsPrintable

theorem comparison?_words (op : Comparison) (rest : List Word) :
    comparison? (op.words ++ rest) = some (op, rest) := by
  cases op <;> rfl

section

variable {word : String} {combine : Cond → Cond → Cond} {part : Reader Cond} {c right : Cond}
  {rest r : List Word}

theorem chainFrom_of_ne (h : rest.head? ≠ some (.name word)) :
    chainFrom word combine part c rest = .ok (c, rest) := by
  unfold chainFrom
  split
  · rename_i w r
    rw [if_neg]
    rintro rfl
    exact h rfl
  · rfl

theorem chainFrom_name (h : part r = .ok (right, rest)) (hl : rest.length ≤ r.length) :
    chainFrom word combine part c (.name word :: r) =
      chainFrom word combine part (combine c right) rest := by
  rw [chainFrom.eq_def]
  simp [h, hl]

theorem chain_of_part (h : part r = .ok (c, rest)) :
    chain word combine part r = chainFrom word combine part c rest := by
  rw [chain, h]
  rfl

end

theorem unary_of_ne {ws : List Word} (hnot : ∀ r, ws ≠ .name "not" :: r)
    (hparen : ∀ r, ws ≠ .openParen :: r) (budget : Nat) : unary budget ws = compared ws := by
  unfold unary
  split
  · exact absurd rfl (hnot _)
  · exact absurd rfl (hparen _)
  · exact absurd rfl (hnot _)
  · exact absurd rfl (hparen _)
  · rfl

theorem unary_operand {x : Operand} (h : x.IsPrintable) (budget : Nat) (rest : List Word) :
    unary budget (x.words ++ rest) = compared (x.words ++ rest) := by
  obtain ⟨w, hw, -, ⟨hnot, hparen⟩, -⟩ := Operand.words_eq_singleton h
  rw [hw]
  exact unary_of_ne (by simp [hnot]) (by simp [hparen]) budget

theorem compared_operand {x : Operand} (h : x.IsPrintable) {rest : List Word}
    (hr : comparison? rest = none) : compared (x.words ++ rest) = .ok (.operand x, rest) := by
  simp only [compared, operand_words h, bind, Except.bind, hr]
  rfl

theorem compared_words {left right : Operand} (hl : left.IsPrintable) (hr : right.IsPrintable)
    (op : Comparison) (rest : List Word) :
    compared (left.words ++ (op.words ++ (right.words ++ rest))) =
      .ok (.compare left op right, rest) := by
  simp only [compared, operand_words hl, bind, Except.bind, comparison?_words, operand_words hr]
  rfl

/-- Conjunctions of what stands at the last level. -/
def conjunction (budget : Nat) : Reader Cond :=
  chain "and" .and (unary budget)

theorem unary_grouped {budget : Nat} {c : Cond} {ws rest : List Word}
    (h : alternatives (unary budget) (ws ++ .closeParen :: rest) = .ok (c, .closeParen :: rest)) :
    unary (budget + 1) (grouped true ws ++ rest) = .ok (c, rest) := by
  have hws : grouped true ws ++ rest = .openParen :: (ws ++ .closeParen :: rest) := by
    simp [grouped]
  rw [hws, unary, h]
  rfl

/-- The words of a condition are read back at each of the three levels, with enough of a budget. What
follows must not go on with the level; a chain reads on from the condition. -/
structure Cond.ReadsBack (c : Cond) (budget : Nat) : Prop where
  last : c.nesting 2 ≤ budget → ∀ rest, comparison? rest = none →
    unary budget (c.words 2 ++ rest) = .ok (c, rest)
  middle : c.nesting 1 ≤ budget → ∀ rest, comparison? rest = none →
    conjunction budget (c.words 1 ++ rest) = chainFrom "and" .and (unary budget) c rest
  first : c.nesting 0 ≤ budget → ∀ rest, comparison? rest = none →
    rest.head? ≠ some (.name "and") → alternatives (unary budget) (c.words 0 ++ rest) =
      chainFrom "or" .or (conjunction budget) c rest

namespace Cond

variable {c left right : Cond} {budget : Nat}

/-- What is written alike at the last two levels is read alike. -/
theorem middle_of_last (hw : c.words 1 = c.words 2) {rest : List Word}
    (h : unary budget (c.words 2 ++ rest) = .ok (c, rest)) :
    conjunction budget (c.words 1 ++ rest) = chainFrom "and" .and (unary budget) c rest := by
  rw [hw]
  exact chain_of_part h

/-- What is written alike at the first two levels is read alike. -/
theorem first_of_middle (hw : c.words 0 = c.words 1) {rest : List Word}
    (hand : rest.head? ≠ some (.name "and"))
    (h : conjunction budget (c.words 1 ++ rest) = chainFrom "and" .and (unary budget) c rest) :
    alternatives (unary budget) (c.words 0 ++ rest) =
      chainFrom "or" .or (conjunction budget) c rest := by
  rw [chainFrom_of_ne hand] at h
  rw [hw]
  exact chain_of_part h

/-- A condition that is written alike at all levels is read at all of them if it is at the last. -/
theorem readsBack_of_last (hw : ∀ level, c.words level = c.words 2)
    (hn : ∀ level, c.nesting level = c.nesting 2)
    (h : c.nesting 2 ≤ budget → ∀ rest, comparison? rest = none →
      unary budget (c.words 2 ++ rest) = .ok (c, rest)) : c.ReadsBack budget := by
  refine ⟨h, fun hb rest hr => ?_, fun hb rest hr hand => ?_⟩
  · exact middle_of_last (hw 1) (h (hn 1 ▸ hb) rest hr)
  · exact first_of_middle ((hw 0).trans (hw 1).symm) hand
      (middle_of_last (hw 1) (h (hn 0 ▸ hb) rest hr))

/-- A condition in parentheses is read as a whole condition on a smaller budget. -/
theorem last_of_first {b : Nat} {ws : List Word} (hws : c.words 2 = grouped true ws)
    (hwhole : c.words 0 = ws) (hn : c.nesting 2 = c.nesting 0 + 1)
    (h : ∀ budget, c.nesting 0 ≤ budget → ∀ rest, comparison? rest = none →
      rest.head? ≠ some (.name "and") → alternatives (unary budget) (c.words 0 ++ rest) =
        chainFrom "or" .or (conjunction budget) c rest)
    (hb : c.nesting 2 ≤ b) (rest : List Word) : unary b (c.words 2 ++ rest) = .ok (c, rest) := by
  obtain ⟨budget, rfl⟩ : ∃ budget, b = budget + 1 := ⟨b - 1, by omega⟩
  rw [hws]
  refine unary_grouped ?_
  rw [← hwhole, h budget (by omega) _ rfl (by simp), chainFrom_of_ne (by simp)]

theorem length_le_append (ws rest : List Word) : rest.length ≤ (ws ++ rest).length := by
  simp

/-- **Every level of a condition reads back its words.** -/
theorem reads (c : Cond) (hc : c.IsPrintable) (budget : Nat) : c.ReadsBack budget := by
  induction c generalizing budget with
  | operand x =>
    refine readsBack_of_last (fun _ => by simp only [words]) (fun _ => by simp only [nesting]) ?_
    intro _ rest hr
    rw [words, unary_operand hc, compared_operand hc hr]
  | compare left op right =>
    refine readsBack_of_last (fun _ => by simp only [words]) (fun _ => by simp only [nesting]) ?_
    intro _ rest _
    rw [words, List.append_assoc, List.append_assoc, unary_operand hc.1, compared_words hc.1 hc.2]
  | not c ih =>
    refine readsBack_of_last (fun _ => by simp only [words]) (fun _ => by simp only [nesting]) ?_
    intro hb rest hr
    obtain ⟨b, rfl⟩ : ∃ b, budget = b + 1 := ⟨budget - 1, by simp only [nesting] at hb; omega⟩
    have hlast := (ih hc b).last (by simp only [nesting] at hb; omega) rest hr
    rw [words, List.cons_append, unary, hlast]
    rfl
  | and left right ihl ihr =>
    have hmiddle : ∀ b, max (left.nesting 1) (right.nesting 2) ≤ b → ∀ rest,
        comparison? rest = none →
        conjunction b (((and left right).words 1) ++ rest) =
          chainFrom "and" .and (unary b) (and left right) rest := by
      intro b hb rest hr
      have hright := (ihr hc.2 b).last (by omega) rest hr
      rw [words, grouped, if_neg (by decide), List.append_assoc, List.cons_append,
        (ihl hc.1 b).middle (by omega) _ rfl, chainFrom_name hright (length_le_append _ _)]
    have hfirst : ∀ b, (and left right).nesting 0 ≤ b → ∀ rest, comparison? rest = none →
        rest.head? ≠ some (.name "and") → alternatives (unary b) ((and left right).words 0 ++ rest) =
          chainFrom "or" .or (conjunction b) (and left right) rest := by
      intro b hb rest hr hand
      exact first_of_middle (by simp only [words]; rfl) hand
        (hmiddle b (by simpa [nesting] using hb) rest hr)
    refine ⟨fun hb rest _ => ?_, fun hb => hmiddle budget (by simpa [nesting] using hb), hfirst budget⟩
    exact last_of_first (by simp only [words]; rfl) rfl (by simp [nesting]) hfirst hb rest
  | or left right ihl ihr =>
    have hfirst : ∀ b, (or left right).nesting 0 ≤ b → ∀ rest, comparison? rest = none →
        rest.head? ≠ some (.name "and") → alternatives (unary b) ((or left right).words 0 ++ rest) =
          chainFrom "or" .or (conjunction b) (or left right) rest := by
      intro b hb rest hr hand
      simp only [nesting, Nat.lt_irrefl, if_false, Nat.add_zero] at hb
      have hright : conjunction b (right.words 1 ++ rest) = .ok (right, rest) := by
        rw [(ihr hc.2 b).middle (by omega) rest hr, chainFrom_of_ne hand]
      rw [words, grouped, if_neg (by decide), List.append_assoc, List.cons_append,
        (ihl hc.1 b).first (by omega) _ rfl (by simp), chainFrom_name hright (length_le_append _ _)]
    have hlast : ∀ b, (or left right).nesting 2 ≤ b → ∀ rest,
        unary b ((or left right).words 2 ++ rest) = .ok (or left right, rest) := by
      intro b hb rest
      exact last_of_first (by simp only [words]; rfl) rfl (by simp [nesting]) hfirst hb rest
    refine ⟨fun hb rest _ => hlast budget hb rest, fun hb rest _ => ?_, hfirst budget⟩
    exact middle_of_last (by simp only [words]; rfl)
      (hlast budget (by simpa [nesting] using hb) rest)

end Cond

/-- **The words of a condition are read as the condition.** -/
theorem condition_words {c : Cond} (hc : c.IsPrintable) (hn : c.nesting 0 ≤ maxNesting) :
    condition (c.words 0) = .ok c := by
  have h := (c.reads hc maxNesting).first hn [] rfl (by simp)
  rw [List.append_nil, chainFrom_of_ne (by simp)] at h
  simp only [condition, h, bind, Except.bind]
  rfl

/-! ### Texts of expressions -/

theorem isSpellable_grouped {needed : Bool} {ws : List Word} (h : ∀ w ∈ ws, w.IsSpellable) :
    ∀ w ∈ grouped needed ws, w.IsSpellable := by
  cases needed with
  | false => exact h
  | true =>
    intro w hw
    simp only [grouped, if_true, List.cons_append, List.mem_cons, List.mem_append, List.not_mem_nil,
      or_false] at hw
    rcases hw with rfl | hw | rfl
    · trivial
    · exact h w hw
    · trivial

theorem isSpellable_between {word : String} {ws vs : List Word} (hword : word ∈ ownNames)
    (hws : ∀ w ∈ ws, w.IsSpellable) (hvs : ∀ w ∈ vs, w.IsSpellable) :
    ∀ w ∈ ws ++ .name word :: vs, w.IsSpellable := by
  intro w hw
  rcases List.mem_append.mp hw with hw | hw
  · exact hws w hw
  · rcases List.mem_cons.mp hw with rfl | hw
    · exact isSpellable_of_mem_ownNames hword
    · exact hvs w hw

theorem Comparison.isSpellable_words (op : Comparison) : ∀ w ∈ op.words, w.IsSpellable := by
  have hname : ∀ s ∈ ownNames, (Word.name s).IsSpellable := fun _ => isSpellable_of_mem_ownNames
  cases op <;> simp only [words, List.forall_mem_cons]
  · exact ⟨trivial, nofun⟩
  · exact ⟨trivial, nofun⟩
  · exact ⟨hname "in" (by decide), nofun⟩
  · exact ⟨hname "not" (by decide), hname "in" (by decide), nofun⟩

theorem Cond.isSpellable_words {c : Cond} (hc : c.IsPrintable) (level : Nat) :
    ∀ w ∈ c.words level, w.IsSpellable := by
  induction c generalizing level with
  | operand x =>
    rw [words]
    exact Operand.isSpellable_words hc
  | compare left op right =>
    rw [words]
    intro w hw
    rcases List.mem_append.mp hw with hw | hw
    · rcases List.mem_append.mp hw with hw | hw
      · exact Operand.isSpellable_words hc.1 w hw
      · exact Comparison.isSpellable_words op w hw
    · exact Operand.isSpellable_words hc.2 w hw
  | not c ih =>
    rw [words]
    exact List.forall_mem_cons.mpr ⟨isSpellable_of_mem_ownNames (by decide), ih hc 2⟩
  | and left right ihl ihr =>
    rw [words]
    exact isSpellable_grouped (isSpellable_between (by decide) (ihl hc.1 1) (ihr hc.2 2))
  | or left right ihl ihr =>
    rw [words]
    exact isSpellable_grouped (isSpellable_between (by decide) (ihl hc.1 0) (ihr hc.2 1))

/-- The text of an output is read as the output. -/
theorem Output.ofText_spell {o : Output} (h : o.IsPrintable) : ofText (spell o.words) = .ok o := by
  simp only [ofText, words_spell (isSpellable_words h), bind, Except.bind, output_words h]

/-- The text of a condition is read as the condition. -/
theorem Cond.ofText_spell {c : Cond} (hc : c.IsPrintable) (hn : c.nesting 0 ≤ maxNesting) :
    ofText (spell (c.words 0)) = .ok c := by
  simp only [ofText, words_spell (isSpellable_words hc 0), bind, Except.bind,
    condition_words hc hn]

end ExperimentKpi.Template
