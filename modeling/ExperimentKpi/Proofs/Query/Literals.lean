/-
# The literals that a reader of query text sees

A reference reader of query text: single quotes pair from left to right, inside a literal a backslash
takes the next character with it, whatever that is, and a quote that nothing closes opens nothing.
`literals` lists the bodies of the literals that it sees.

Where no backslash stands before a line feed it finds the literals that escaping works on
(`literalBody?_eq_closing?`), so escaping acts on its literals one by one
(`literals_escapeLiterals`); restoring the end of table definitions does so in every text
(`literals_restore`). What restoring does to a body is shown along the ends of table definitions and the
characters that backslashes take (`restore_induction`).

Key definitions: `Query.closing?`, `Query.literals`, `Query.BreaksUnescaped`, `Query.restore`.
Key theorems: `Query.literals_escapeLiterals`, `Query.restore_induction`, `Query.literals_restore`.
-/
import ExperimentKpi.Proofs.Query.Replacement
import ExperimentKpi.Query.Sanitize

namespace ExperimentKpi.Query

/-- A literal after its opening quote: its body, and the text after the closing quote. -/
def closing? : List Char → Option (List Char × List Char)
  | [] => none
  | '\'' :: r => some ([], r)
  | '\\' :: c :: r => (closing? r).map fun (body, rest) => ('\\' :: c :: body, rest)
  | c :: r => (closing? r).map fun (body, rest) => (c :: body, rest)

theorem closing?_append {s body rest : List Char} (h : closing? s = some (body, rest)) :
    s = body ++ '\'' :: rest := by
  fun_induction closing? s generalizing body rest with
  | case1 => simp at h
  | case2 r => simp_all
  | case3 c r ih =>
    obtain ⟨⟨b, r'⟩, hr, he⟩ := Option.map_eq_some_iff.mp h
    simp only [Prod.mk.injEq] at he
    rw [ih hr, ← he.1, ← he.2]
    rfl
  | case4 c r _ _ ih =>
    obtain ⟨⟨b, r'⟩, hr, he⟩ := Option.map_eq_some_iff.mp h
    simp only [Prod.mk.injEq] at he
    rw [ih hr, ← he.1, ← he.2]
    rfl

/-- The bodies of the literals of a text, in order. -/
def literals (s : List Char) : List (List Char) :=
  match s with
  | [] => []
  | c :: r =>
    if c = '\'' then
      match _h : closing? r with
      | some (body, rest) => body :: literals rest
      | none => literals r
    else literals r
termination_by s.length
decreasing_by
  · rw [closing?_append _h]
    simp only [List.length_cons, List.length_append]
    omega
  · simp
  · simp

@[simp] theorem literals_nil : literals [] = [] := by rw [literals]

theorem literals_cons {c : Char} (h : c ≠ '\'') (r : List Char) :
    literals (c :: r) = literals r := by
  rw [literals, if_neg h]

theorem literals_closed {r body rest : List Char} (h : closing? r = some (body, rest)) :
    literals ('\'' :: r) = body :: literals rest := by
  rw [literals, if_pos rfl]
  split
  · simp_all
  · simp_all

theorem literals_unclosed {r : List Char} (h : closing? r = none) :
    literals ('\'' :: r) = literals r := by
  rw [literals, if_pos rfl]
  split
  · simp_all
  · rfl

/-- The two ways in which the reader goes on: behind a literal, or by one character that opens
none. -/
theorem literals_induction {motive : List Char → Prop} (nil : motive [])
    (literal : ∀ body rest, closing? (body ++ '\'' :: rest) = some (body, rest) → motive rest →
      motive ('\'' :: (body ++ '\'' :: rest)))
    (unclosed : ∀ r, closing? r = none → motive r → motive ('\'' :: r))
    (other : ∀ c r, c ≠ '\'' → motive r → motive (c :: r)) (s : List Char) : motive s := by
  induction hn : s.length using Nat.strong_induction_on generalizing s with
  | _ n ih =>
    subst hn
    rcases s with _ | ⟨c, r⟩
    · exact nil
    · by_cases hc : c = '\''
      · subst hc
        cases hr : closing? r with
        | none => exact unclosed r hr (ih _ (by simp) r rfl)
        | some p =>
          obtain ⟨body, rest⟩ := p
          have hs := closing?_append hr
          subst hs
          exact literal body rest hr (ih _ (by simp; omega) rest rfl)
      · exact other c r hc (ih _ (by simp) r rfl)

/-! ### Escaping -/

/-- No backslash is immediately followed by a line feed. -/
def BreaksUnescaped (s : List Char) : Prop :=
  s.IsChain fun a b => a = '\\' → b ≠ '\n'

instance (s : List Char) : Decidable (BreaksUnescaped s) := by
  unfold BreaksUnescaped
  infer_instance

theorem BreaksUnescaped.tail {c : Char} {s : List Char} (h : BreaksUnescaped (c :: s)) :
    BreaksUnescaped s :=
  List.IsChain.tail h

theorem BreaksUnescaped.right {a b : List Char} (h : BreaksUnescaped (a ++ b)) :
    BreaksUnescaped b :=
  (List.isChain_append.mp h).2.1

/-- Decoded characters are neither backslashes nor line feeds. -/
theorem BreaksUnescaped.decodeEntities {s : List Char} (h : BreaksUnescaped s) :
    BreaksUnescaped (decodeEntities s) := by
  have hc : ∀ e ∈ entities, e.2 ≠ '\\' ∧ e.2 ≠ '\n' := by decide
  exact isChain_decodeEntities
    (fun e he a => ⟨fun _ => (hc e he).2, fun h => absurd h (hc e he).1⟩) h

/-- The literals that escaping works on are those of the reader. -/
theorem literalBody?_eq_closing? {s : List Char} (h : BreaksUnescaped s) :
    literalBody? s = closing? s := by
  fun_induction closing? s with
  | case1 => rfl
  | case2 r => rfl
  | case3 c r ih =>
    have hc : c ≠ '\n' := (List.isChain_cons_cons.mp h).1 rfl
    rw [literalBody?, if_neg hc, ih h.tail.tail]
  | case4 c r hq hb ih =>
    by_cases hc : c = '\\'
    · subst hc
      cases r with
      | nil => rfl
      | cons d r => exact absurd rfl (hb d r rfl)
    · rw [literalBody?, if_neg hc, ih h.tail]
      · simpa using hq
      · intro d r' h1
        exact absurd h1 hc

theorem escapeLiterals_cons {c : Char} (h : c ≠ '\'') (r : List Char) :
    escapeLiterals (c :: r) = c :: escapeLiterals r := by
  rw [escapeLiterals, if_neg h]

theorem escapeLiterals_literal {r body rest : List Char} (h : literalBody? r = some (body, rest)) :
    escapeLiterals ('\'' :: r) = '\'' :: (escapeBody body ++ '\'' :: escapeLiterals rest) := by
  rw [escapeLiterals, if_pos rfl]
  split
  · simp_all
  · simp_all

theorem escapeLiterals_quote {r : List Char} (h : literalBody? r = none) :
    escapeLiterals ('\'' :: r) = '\'' :: escapeLiterals r := by
  rw [escapeLiterals, if_pos rfl]
  split
  · simp_all
  · rfl

theorem escapeLiterals_closed {r body rest : List Char} (hb : BreaksUnescaped r)
    (h : closing? r = some (body, rest)) :
    escapeLiterals ('\'' :: r) = '\'' :: (escapeBody body ++ '\'' :: escapeLiterals rest) :=
  escapeLiterals_literal ((literalBody?_eq_closing? hb).trans h)

theorem escapeLiterals_unclosed {r : List Char} (hb : BreaksUnescaped r) (h : closing? r = none) :
    escapeLiterals ('\'' :: r) = '\'' :: escapeLiterals r :=
  escapeLiterals_quote ((literalBody?_eq_closing? hb).trans h)

/-- A text in which the reader finds no closing quote has no literal to escape. -/
theorem escapeLiterals_of_unclosed {s : List Char} (h : BreaksUnescaped s)
    (hn : closing? s = none) : escapeLiterals s = s := by
  fun_induction closing? s with
  | case1 => rw [escapeLiterals]
  | case2 r => simp at hn
  | case3 c r ih =>
    have hr : closing? r = none := by simpa using hn
    have he := ih h.tail.tail hr
    rw [escapeLiterals_cons (by decide)]
    by_cases hc : c = '\''
    · subst hc
      rw [escapeLiterals_unclosed h.tail.tail hr, he]
    · rw [escapeLiterals_cons hc, he]
  | case4 c r hq _ ih =>
    have hr : closing? r = none := by simpa using hn
    rw [escapeLiterals_cons (by simpa using hq), ih h.tail hr]

theorem closing?_cons {c : Char} (hq : c ≠ '\'') (hb : c ≠ '\\') (r : List Char) :
    closing? (c :: r) = (closing? r).map fun (body, rest) => (c :: body, rest) := by
  rw [closing?]
  · simpa using hq
  · exact fun d r' h => absurd h hb

theorem closing?_escaped (c : Char) (r : List Char) :
    closing? ('\\' :: c :: r) =
      (closing? r).map fun (body, rest) => ('\\' :: c :: body, rest) := by
  rw [closing?]

/-- Escaping puts no dash at the head of a body. -/
theorem head?_escapeBody {s : List Char} (h : (escapeBody s).head? = some '-') :
    s.head? = some '-' := by
  fun_induction escapeBody s with
  | case1 | case2 | case3 | case4 => simp at h
  | case5 c r => simpa using h
  | case6 => simp at h

theorem escapeBody_escaped {c : Char} {r : List Char} (h : c = '-' → r.head? ≠ some '-') :
    escapeBody ('\\' :: c :: r) = '\\' :: c :: escapeBody r := by
  rw [escapeBody]
  intro r' hc hr
  subst hc hr
  exact h rfl rfl

theorem escapeBody_plain {c : Char} {r : List Char} (hs : c ≠ ';') (hb : c = '\\' → r = [])
    (hd : c = '-' → r.head? ≠ some '-') : escapeBody (c :: r) = c :: escapeBody r := by
  rw [escapeBody]
  · intro r' hc hr
    rw [hb hc] at hr
    cases hr
  · intro d r' hc hr
    rw [hb hc] at hr
    cases hr
  · exact hs
  · intro r' hc hr
    subst hc hr
    exact hd rfl rfl

/-- An escaped body is closed by the quote behind it, just as the body was. -/
theorem closing?_escapeBody {body : List Char} {t t' : List Char}
    (h : closing? (body ++ '\'' :: t) = some (body, t)) :
    closing? (escapeBody body ++ '\'' :: t') = some (escapeBody body, t') := by
  have hmap : ∀ {p r b : List Char} {t : List Char},
      ((closing? r).map fun (body, rest) => (p ++ body, rest)) = some (p ++ b, t) →
        closing? r = some (b, t) := by
    intro p r b t hm
    obtain ⟨⟨x, y⟩, hx, he⟩ := Option.map_eq_some_iff.mp hm
    simp only [Prod.mk.injEq, List.append_cancel_left_eq] at he
    rw [hx, he.1, he.2]
  fun_induction escapeBody body with
  | case1 r ih =>
    have hr : closing? ('-' :: (r ++ '\'' :: t)) = some ('-' :: r, t) := hmap (p := ['\\', '-']) h
    have hr' := hmap (p := ['-']) hr
    simp only [List.cons_append, closing?_escaped, closing?_cons (by decide : '-' ≠ '\'')
      (by decide), ih hr', Option.map_some]
  | case2 c r _ ih =>
    have hr := hmap (p := ['\\', c]) h
    simp only [List.cons_append, closing?_escaped, ih hr, Option.map_some]
  | case3 r ih =>
    have hr := hmap (p := [';']) h
    simp only [List.cons_append, closing?_escaped, ih hr, Option.map_some]
  | case4 r ih =>
    have hr : closing? ('-' :: (r ++ '\'' :: t)) = some ('-' :: r, t) := hmap (p := ['-']) h
    have hr' := hmap (p := ['-']) hr
    simp only [List.cons_append, closing?_escaped, closing?_cons (by decide : '-' ≠ '\'')
      (by decide), ih hr', Option.map_some]
  | case5 c r _ hb _ _ ih =>
    by_cases hq : c = '\''
    · subst hq
      simp [closing?] at h
    · by_cases hc : c = '\\'
      · subst hc
        cases r with
        | nil =>
          rw [List.cons_append, List.nil_append, closing?_escaped, Option.map_eq_some_iff] at h
          obtain ⟨_, _, he⟩ := h
          simp at he
        | cons d r => exact absurd rfl (hb d r rfl)
      · rw [List.cons_append, closing?_cons hq hc] at h ⊢
        rw [ih (hmap (p := [c]) h), Option.map_some]
  | case6 => rfl

/-- **Escaping acts on the literals one by one.** -/
theorem literals_escapeLiterals {s : List Char} (h : BreaksUnescaped s) :
    literals (escapeLiterals s) = (literals s).map escapeBody := by
  induction s using literals_induction with
  | nil => rw [escapeLiterals, literals_nil]; rfl
  | literal body rest hc ih =>
    rw [escapeLiterals_closed h.tail hc, literals_closed (closing?_escapeBody hc),
      literals_closed hc, List.map_cons, ih h.tail.right.tail]
  | unclosed r hc ih =>
    have hr := ih h.tail
    have he := escapeLiterals_of_unclosed h.tail hc
    rw [he] at hr
    rw [escapeLiterals_unclosed h.tail hc, he, literals_unclosed hc, ← hr]
  | other c r hc ih =>
    rw [escapeLiterals_cons hc, literals_cons hc, literals_cons hc, ih h.tail]

/-! ### The ends of table definitions -/

/-- A text with the semicolon at the end of every table definition restored. -/
def restore (s : List Char) : List Char :=
  replaceAll (tableEnd ['\\']) (tableEnd []) s

theorem escapeStage_eq (s : List Char) : escapeStage s = restore (escapeLiterals s) := rfl

@[simp] theorem restore_nil : restore [] = [] := replaceAll_nil _ _

theorem restore_tableEnd (s : List Char) :
    restore (tableEnd ['\\'] ++ s) = tableEnd [] ++ restore s :=
  replaceAll_append (by decide) s

theorem restore_cons {c : Char} {s : List Char} (h : ¬ tableEnd ['\\'] <+: c :: s) :
    restore (c :: s) = c :: restore s :=
  replaceAll_cons h

theorem restore_cons_of_ne {c : Char} (h : c ≠ 'R') (s : List Char) :
    restore (c :: s) = c :: restore s :=
  replaceAll_cons_of_ne h.symm

theorem head?_restore (s : List Char) : (restore s).head? = s.head? :=
  head?_replaceAll s

/-- The end of a table definition is restored also where a backslash takes its first character. -/
theorem restore_occurrence {lead : List Char} (hl : lead = [] ∨ lead = ['\\']) (s : List Char) :
    restore (lead ++ (tableEnd ['\\'] ++ s)) = lead ++ (tableEnd [] ++ restore s) := by
  rcases hl with rfl | rfl
  · exact restore_tableEnd s
  · rw [List.cons_append, restore_cons_of_ne (by decide), List.nil_append, restore_tableEnd]
    rfl

/-- The ways in which a body goes on for a reader of backslashes and of the ends of table definitions:
with such an end, which a backslash may take, with a pair of dashes or another character that a
backslash takes, or with a character that no backslash takes. -/
theorem restore_induction {motive : List Char → Prop} (nil : motive [])
    (occurrence : ∀ lead t, lead = [] ∨ lead = ['\\'] → motive t →
      motive (lead ++ (tableEnd ['\\'] ++ t)))
    (dashes : ∀ r, motive r → motive ('\\' :: '-' :: '-' :: r))
    (escaped : ∀ c r, (c = '-' → r.head? ≠ some '-') → ¬ tableEnd ['\\'] <+: c :: r → motive r →
      motive ('\\' :: c :: r))
    (plain : ∀ c r, (c = '\\' → r = []) → ¬ tableEnd ['\\'] <+: c :: r → motive r →
      motive (c :: r)) (s : List Char) : motive s := by
  induction hn : s.length using Nat.strong_induction_on generalizing s with
  | _ n ih =>
    subst hn
    have hlen (t : List Char) : t.length < (tableEnd ['\\'] ++ t).length := by
      rw [List.length_append]
      exact Nat.lt_add_of_pos_left (by decide)
    by_cases hp : tableEnd ['\\'] <+: s
    · obtain ⟨t, rfl⟩ := hp
      exact occurrence [] t (.inl rfl) (ih _ (hlen t) t rfl)
    cases s with
    | nil => exact nil
    | cons c r =>
      by_cases hc : c = '\\'
      · subst hc
        cases r with
        | nil => exact plain '\\' [] (fun _ => rfl) hp nil
        | cons d r =>
          by_cases hd : tableEnd ['\\'] <+: d :: r
          · obtain ⟨t, ht⟩ := hd
            rw [← ht] at ih ⊢
            exact occurrence ['\\'] t (.inr rfl) (ih _ ((hlen t).trans (Nat.lt_succ_self _)) t rfl)
          by_cases hdashes : d = '-' ∧ r.head? = some '-'
          · obtain ⟨rfl, hr⟩ := hdashes
            obtain ⟨r, rfl⟩ := List.head?_eq_some_iff.mp hr
            exact dashes r (ih _ (by simp only [List.length_cons]; omega) r rfl)
          · exact escaped d r (fun hdash hr => hdashes ⟨hdash, hr⟩) hd
              (ih _ (by simp only [List.length_cons]; omega) r rfl)
      · exact plain c r (fun h => absurd h hc) hp (ih _ (by simp) r rfl)

/-- The reader passes over the end of a table definition, also where a backslash takes its first
character. -/
theorem closing?_tableEnd {lead before : List Char} (hl : lead = [] ∨ lead = ['\\'])
    (hb : before = [] ∨ before = ['\\']) (s : List Char) :
    closing? (lead ++ (tableEnd before ++ s)) =
      (closing? s).map fun (body, rest) => (lead ++ (tableEnd before ++ body), rest) := by
  rcases hl with rfl | rfl <;> rcases hb with rfl | rfl <;> cases hs : closing? s <;>
    simp [tableEnd, closing?, hs]

/-- The reader finds the same closing quote in the restored text. -/
theorem closing?_restore (s : List Char) :
    closing? (restore s) = (closing? s).map fun (body, rest) => (restore body, restore rest) := by
  -- Where a text does not start with the end of a table definition, its body does not either.
  have hstart {c : Char} {r body rest : List Char} (hp : ¬ tableEnd ['\\'] <+: c :: r)
      (hr : closing? r = some (body, rest)) : restore (c :: body) = c :: restore body := by
    refine restore_cons fun hb => hp (hb.trans ?_)
    rw [closing?_append hr]
    exact List.cons_prefix_cons.mpr ⟨rfl, List.prefix_append _ _⟩
  induction s using restore_induction with
  | nil => simp [closing?]
  | occurrence lead t hl ih =>
    rw [restore_occurrence hl, closing?_tableEnd hl (.inl rfl), closing?_tableEnd hl (.inr rfl), ih]
    cases closing? t with
    | none => rfl
    | some p => simp only [Option.map_some, restore_occurrence hl]
  | dashes r ih =>
    have hdash (s : List Char) : closing? ('-' :: s) =
        (closing? s).map fun (body, rest) => ('-' :: body, rest) :=
      closing?_cons (by decide) (by decide) s
    rw [restore_cons_of_ne (by decide), restore_cons_of_ne (by decide), restore_cons_of_ne (by decide),
      closing?_escaped, closing?_escaped, hdash, hdash, ih]
    cases closing? r with
    | none => rfl
    | some p =>
      simp only [Option.map_some]
      rw [restore_cons_of_ne (by decide), restore_cons_of_ne (by decide),
        restore_cons_of_ne (by decide)]
  | escaped c r _ hp ih =>
    rw [restore_cons_of_ne (by decide), restore_cons hp, closing?_escaped, closing?_escaped, ih]
    cases hr : closing? r with
    | none => rfl
    | some p =>
      simp only [Option.map_some]
      rw [restore_cons_of_ne (by decide), hstart hp hr]
  | plain c r hback hp ih =>
    rw [restore_cons hp]
    by_cases hq : c = '\''
    · subst hq
      simp [closing?]
    by_cases hb : c = '\\'
    · rw [hback hb, hb]
      simp [closing?]
    rw [closing?_cons hq hb, closing?_cons hq hb, ih]
    cases hr : closing? r with
    | none => rfl
    | some p =>
      simp only [Option.map_some]
      rw [hstart hp hr]

theorem literals_append {p : List Char} (h : '\'' ∉ p) (s : List Char) :
    literals (p ++ s) = literals s := by
  induction p with
  | nil => rfl
  | cons c r ih =>
    simp only [List.mem_cons, not_or] at h
    rw [List.cons_append, literals_cons (Ne.symm h.1), ih h.2]

/-- **Restoring acts on the literals one by one.** -/
theorem literals_restore (s : List Char) : literals (restore s) = (literals s).map restore := by
  induction s using literals_induction with
  | nil => simp
  | literal body rest hc ih =>
    rw [restore_cons_of_ne (by decide), literals_closed hc, List.map_cons, ← ih]
    exact literals_closed (by rw [closing?_restore, hc]; rfl)
  | unclosed r hc ih =>
    rw [restore_cons_of_ne (by decide), literals_unclosed hc, ← ih]
    exact literals_unclosed (by rw [closing?_restore, hc]; rfl)
  | other c r hc ih =>
    rw [literals_cons hc]
    by_cases hp : tableEnd ['\\'] <+: c :: r
    · -- the occurrence is passed over from its second character on, where the hypothesis starts
      obtain ⟨t, ht⟩ := hp
      have hr : r = ['C', 'F', 'I', 'L', 'E', '\n', '\\', ';'] ++ t := (List.cons.inj ht).2.symm
      have hcopy : restore r = ['C', 'F', 'I', 'L', 'E', '\n', '\\', ';'] ++ restore t := by
        rw [hr]
        simp only [List.cons_append, List.nil_append]
        repeat rw [restore_cons_of_ne (by decide)]
      rw [← ih, ← ht, restore_tableEnd, literals_append (by decide), hcopy,
        literals_append (by decide)]
    · rw [restore_cons hp, literals_cons hc, ih]

end ExperimentKpi.Query
