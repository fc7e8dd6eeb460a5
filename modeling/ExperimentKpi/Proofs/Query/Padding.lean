/-
# What escaping changes

Escaping puts a backslash before some semicolons and pairs of dashes and does nothing else. No
backslash of the text takes the character that it is put before: a run of backslashes takes what
follows it exactly if its length is odd, also where a literal begins in the run, so this can be said
of a text as a whole, from left to right (`Pads`). It holds of every text, whatever quotes and line
feeds stand in it (`pads_escapeLiterals`).

A padded text has the closing quotes of the text (`Pads.closing?`), takes the same characters and
differs from it in backslashes alone; restoring the ends of table definitions keeps all of this.

Key definitions: `Query.Pads`, `Query.breaksUntaken`, `Query.withoutBackslashes`.
Key theorems: `Query.pads_escapeLiterals`, `Query.Pads.closing?`, `Query.Pads.isInfix`,
`Query.literalBody?_eq_filter`, `Query.withoutBackslashes_escapeStage`.
-/
import ExperimentKpi.Proofs.Query.Literals

namespace ExperimentKpi.Query

/-- The second text is the first with backslashes put before semicolons and pairs of dashes that no
backslash takes. The flag says whether one takes the first character. -/
inductive Pads : Bool → List Char → List Char → Prop
  | nil (taken : Bool) : Pads taken [] []
  | keep {taken : Bool} (c : Char) {s s' : List Char} (rest : Pads (!taken && c == '\\') s s') :
    Pads taken (c :: s) (c :: s')
  | semicolon {s s' : List Char} (rest : Pads false s s') : Pads false (';' :: s) ('\\' :: ';' :: s')
  | dashes {s s' : List Char} (rest : Pads false s s') :
    Pads false ('-' :: '-' :: s) ('\\' :: '-' :: '-' :: s')

/-- No backslash takes a line feed; the flag says whether one takes the first character. -/
def breaksUntaken : Bool → List Char → Bool
  | _, [] => true
  | taken, c :: r => !(taken && c == '\n') && breaksUntaken (!taken && c == '\\') r

/-- A text without its backslashes. -/
def withoutBackslashes (s : List Char) : List Char :=
  s.filter (· != '\\')

namespace Pads

variable {taken : Bool} {a b s s' t : List Char} {c : Char}

/-- A character behind one that is not taken and no backslash is not taken either. -/
theorem keep_plain (h : c ≠ '\\') (rest : Pads false s s') : Pads taken (c :: s) (c :: s') := by
  have hflag : (!taken && c == '\\') = false := by
    rw [beq_eq_false_iff_ne.mpr h, Bool.and_false]
  exact keep c (hflag ▸ rest)

theorem keep_escaped (c : Char) (rest : Pads false s s') :
    Pads false ('\\' :: c :: s) ('\\' :: c :: s') :=
  keep _ (keep c rest)

/-- A kept character that is no backslash leaves the next one untaken. -/
theorem of_keep_plain (h : Pads taken (c :: s) (c :: s')) (hc : c ≠ '\\') : Pads false s s' := by
  have hflag : (!taken && c == '\\') = false := by
    rw [beq_eq_false_iff_ne.mpr hc, Bool.and_false]
  cases h with
  | keep _ rest => exact hflag ▸ rest

theorem append_quote (ha : Pads taken a s) (hb : Pads false b t) :
    Pads taken (a ++ '\'' :: b) (s ++ '\'' :: t) := by
  induction ha with
  | nil => exact keep_plain (by decide) hb
  | keep c _ ih => exact keep c ih
  | semicolon _ ih => exact semicolon ih
  | dashes _ ih => exact dashes ih

/-- A quote stays, and the texts before it and behind it are padded. -/
theorem exists_append_quote (h : Pads taken (a ++ '\'' :: b) t) :
    ∃ a' b', t = a' ++ '\'' :: b' ∧ Pads taken a a' ∧ Pads false b b' := by
  generalize hs : a ++ '\'' :: b = s at h
  induction h generalizing a with
  | nil => exact absurd hs (by simp)
  | @keep taken c s s' rest ih =>
    cases a with
    | nil =>
      obtain ⟨rfl, rfl⟩ := List.cons.inj hs
      exact ⟨[], s', rfl, nil _, of_keep_plain (keep _ rest) (by decide)⟩
    | cons d a =>
      obtain ⟨rfl, htail⟩ := List.cons.inj hs
      obtain ⟨a', b', rfl, ha, hb⟩ := ih htail
      exact ⟨d :: a', b', rfl, keep d ha, hb⟩
  | semicolon _ ih =>
    cases a with
    | nil => exact absurd (List.cons.inj hs).1 (by decide)
    | cons d a =>
      obtain ⟨rfl, htail⟩ := List.cons.inj hs
      obtain ⟨a', b', rfl, ha, hb⟩ := ih htail
      exact ⟨'\\' :: ';' :: a', b', rfl, semicolon ha, hb⟩
  | dashes _ ih =>
    match a with
    | [] => exact absurd (List.cons.inj hs).1 (by decide)
    | [d] => exact absurd (List.cons.inj (List.cons.inj hs).2).1 (by decide)
    | d :: e :: a =>
      rw [List.cons_append, List.cons_append, List.cons.injEq, List.cons.injEq] at hs
      obtain ⟨rfl, rfl, htail⟩ := hs
      obtain ⟨a', b', rfl, ha, hb⟩ := ih htail
      exact ⟨'\\' :: '-' :: '-' :: a', b', rfl, dashes ha, hb⟩

theorem rel_map {α β : Type} {R : α → α → Prop} {R' : β → β → Prop} {f g : α → β}
    {x y : Option α} (h : Option.Rel R x y) (hfg : ∀ p q, R p q → R' (f p) (g q)) :
    Option.Rel R' (x.map f) (y.map g) := by
  cases h with
  | none => exact .none
  | some h => exact .some (hfg _ _ h)

/-- The reader finds a closing quote in a padded text where it finds one in the text. -/
theorem closing? (h : Pads false s t) :
    Option.Rel (fun p q => Pads false p.1 q.1 ∧ Pads false p.2 q.2) (closing? s)
      (Query.closing? t) := by
  fun_induction Query.closing? s generalizing t with
  | case1 =>
    cases h
    exact .none
  | case2 r =>
    cases h with
    | keep _ rest => exact .some ⟨nil _, rest⟩
  | case3 c r ih =>
    cases h with
    | keep _ rest =>
      cases rest with
      | keep _ rest =>
        rw [closing?_escaped]
        exact rel_map (ih rest) fun p q hp => ⟨keep_escaped c hp.1, hp.2⟩
  | case4 c r hq hb ih =>
    have hc : c ≠ '\'' := by simpa using hq
    by_cases hback : c = '\\'
    · subst hback
      cases r with
      | cons d r => exact absurd rfl (hb d r rfl)
      | nil =>
        cases h with
        | keep _ rest =>
          cases rest
          exact .none
    · cases h with
      | keep _ rest =>
        rw [closing?_cons hc hback]
        exact rel_map (ih (of_keep_plain (keep c rest) hback)) fun p q hp =>
          ⟨keep_plain hback hp.1, hp.2⟩
      | semicolon rest =>
        rw [closing?_escaped]
        exact rel_map (ih rest) fun p q hp => ⟨semicolon hp.1, hp.2⟩
      | @dashes r r' rest =>
        -- The hypothesis is about the second dash, which is kept.
        have hdash := closing?_cons (c := '-') (by decide) (by decide)
        have ih' := ih (keep_plain (by decide) rest)
        rw [closing?_escaped, hdash, hdash, Option.map_map, Option.map_map]
        rw [hdash, hdash] at ih'
        cases hr : Query.closing? r <;> cases hr' : Query.closing? r' <;> rw [hr, hr'] at ih'
        · exact .none
        · cases ih'
        · cases ih'
        · cases ih' with
          | some hp => exact .some ⟨dashes (of_keep_plain hp.1 (by decide)), hp.2⟩

/-- What starts a padded text and holds no backslash starts the text. -/
theorem isPrefix {e : List Char} (h : Pads taken s t) (he : '\\' ∉ e) (hp : e <+: t) :
    e <+: s := by
  induction h generalizing e with
  | nil => exact hp
  | keep c _ ih =>
    rcases e with _ | ⟨d, e⟩
    · exact List.nil_prefix
    · obtain ⟨rfl, htail⟩ := List.cons_prefix_cons.mp hp
      exact List.cons_prefix_cons.mpr ⟨rfl, ih (fun hc => he (List.mem_cons_of_mem d hc)) htail⟩
  | semicolon | dashes =>
    rcases e with _ | ⟨d, e⟩
    · exact List.nil_prefix
    · obtain ⟨rfl, -⟩ := List.cons_prefix_cons.mp hp
      exact absurd List.mem_cons_self he

/-- What occurs in a padded text and holds no backslash occurs in the text. -/
theorem isInfix {e : List Char} (h : Pads taken s t) (he : '\\' ∉ e) (hi : e <:+: t) :
    e <:+: s := by
  have hkeep : ∀ {taken : Bool} {c : Char} {s t : List Char}, Pads taken (c :: s) (c :: t) →
      (e <:+: t → e <:+: s) → e <:+: c :: t → e <:+: c :: s := by
    intro taken c s t h hst hi
    rcases List.infix_cons_iff.mp hi with hp | hi
    · exact (h.isPrefix he hp).isInfix
    · exact List.infix_cons (hst hi)
  have hback : ∀ {t : List Char}, e <:+: '\\' :: t → e <:+: t := by
    intro t hi
    rcases List.infix_cons_iff.mp hi with hp | hi
    · rcases e with _ | ⟨d, e⟩
      · exact List.nil_infix
      · obtain ⟨rfl, -⟩ := List.cons_prefix_cons.mp hp
        exact absurd List.mem_cons_self he
    · exact hi
  induction h with
  | nil => exact hi
  | keep c rest ih => exact hkeep (keep c rest) ih hi
  | @semicolon s s' rest ih =>
    have hsemicolon : Pads false (';' :: s) (';' :: s') := keep_plain (by decide) rest
    exact hkeep hsemicolon ih (hback hi)
  | @dashes s s' rest ih =>
    have hdash : Pads false ('-' :: s) ('-' :: s') := keep_plain (by decide) rest
    have hdashes : Pads false ('-' :: '-' :: s) ('-' :: '-' :: s') := keep_plain (by decide) hdash
    exact hkeep hdashes (hkeep hdash ih) (hback hi)

theorem breaksUntaken (h : Pads taken s t) :
    breaksUntaken taken t = Query.breaksUntaken taken s := by
  induction h with
  | nil => rfl
  | keep c _ ih => rw [Query.breaksUntaken, Query.breaksUntaken, ih]
  | semicolon _ ih => simpa [Query.breaksUntaken] using ih
  | dashes _ ih => simpa [Query.breaksUntaken] using ih

theorem withoutBackslashes (h : Pads taken s t) :
    withoutBackslashes t = Query.withoutBackslashes s := by
  induction h with
  | nil => rfl
  | keep c _ ih =>
    unfold Query.withoutBackslashes at ih ⊢
    rw [List.filter_cons, List.filter_cons, ih]
  | semicolon _ ih => simpa [Query.withoutBackslashes] using ih
  | dashes _ ih => simpa [Query.withoutBackslashes] using ih

end Pads

/-! ### Escaping -/

variable {s : List Char}

theorem pads_escapeBody (s : List Char) : Pads false s (escapeBody s) := by
  fun_induction escapeBody s with
  | case1 r ih => exact .keep_escaped _ (.keep_plain (by decide) ih)
  | case2 c r _ ih => exact .keep_escaped c ih
  | case3 r ih => exact .semicolon ih
  | case4 r ih => exact .dashes ih
  | case5 c r _ hb _ _ ih =>
    by_cases hc : c = '\\'
    · subst hc
      cases r with
      | nil => exact .keep _ (.nil _)
      | cons d r => exact absurd rfl (hb d r rfl)
    · exact .keep_plain hc ih
  | case6 => exact .nil _

/-- The literals that escaping works on are those of the reader in which no backslash takes a line
feed. -/
theorem literalBody?_eq_filter (s : List Char) :
    literalBody? s = (closing? s).filter fun p => breaksUntaken false p.1 := by
  fun_induction closing? s with
  | case1 => rfl
  | case2 r => rfl
  | case3 c r ih =>
    rw [literalBody?]
    by_cases hc : c = '\n'
    · rw [if_pos hc]
      cases closing? r with
      | none => rfl
      | some p => simp [hc, breaksUntaken, Option.filter_some]
    · rw [if_neg hc, ih]
      cases closing? r with
      | none => rfl
      | some p => cases hp : breaksUntaken false p.1 <;>
        simp [hc, hp, breaksUntaken, Option.filter_some]
  | case4 c r hq hb ih =>
    by_cases hc : c = '\\'
    · subst hc
      cases r with
      | nil => rfl
      | cons d r => exact absurd rfl (hb d r rfl)
    · rw [literalBody?, if_neg hc, ih]
      · cases closing? r with
        | none => rfl
        | some p =>
          have hflag : (c == '\\') = false := beq_eq_false_iff_ne.mpr hc
          cases hp : breaksUntaken false p.1 <;>
            simp [hp, hflag, breaksUntaken, Option.filter_some]
      · simpa using hq
      · intro d r' h
        exact absurd h hc

/-- The three ways in which escaping goes on: behind a literal, by a quote that starts none, or by
another character. -/
theorem escapeLiterals_induction {motive : List Char → Prop} (nil : motive [])
    (literal : ∀ body rest, literalBody? (body ++ '\'' :: rest) = some (body, rest) →
      motive rest → motive ('\'' :: (body ++ '\'' :: rest)))
    (quote : ∀ r, literalBody? r = none → motive r → motive ('\'' :: r))
    (other : ∀ c r, c ≠ '\'' → motive r → motive (c :: r)) (s : List Char) : motive s := by
  fun_induction escapeLiterals s with
  | case1 => exact nil
  | case2 r body rest h ih =>
    obtain rfl := literalBody?_append h
    exact literal body rest h ih
  | case3 r h ih => exact quote r h ih
  | case4 c r hc ih => exact other c r hc ih

/-- **Escaping pads**, whatever the text. -/
theorem pads_escapeLiterals (taken : Bool) (s : List Char) : Pads taken s (escapeLiterals s) := by
  induction s using escapeLiterals_induction generalizing taken with
  | nil => rw [escapeLiterals]; exact .nil _
  | literal body rest h ih =>
    rw [escapeLiterals_literal h]
    exact .keep_plain (by decide) ((pads_escapeBody body).append_quote (ih false))
  | quote r h ih =>
    rw [escapeLiterals_quote h]
    exact .keep_plain (by decide) (ih false)
  | other c r hc ih =>
    rw [escapeLiterals_cons hc]
    exact .keep c (ih _)

/-! ### Restoring -/

theorem breaksUntaken_restore (taken : Bool) (s : List Char) :
    breaksUntaken taken (restore s) = breaksUntaken taken s := by
  induction s using replaceAll_induction (by decide : tableEnd ['\\'] ≠ []) generalizing taken with
  | nil => rw [restore_nil]
  | occurrence s ih =>
    rw [restore_tableEnd]
    cases taken <;> simp [tableEnd, breaksUntaken, ih]
  | copied c s h ih => rw [restore_cons h, breaksUntaken, breaksUntaken, ih]

theorem withoutBackslashes_restore (s : List Char) :
    withoutBackslashes (restore s) = withoutBackslashes s := by
  induction s using replaceAll_induction (by decide : tableEnd ['\\'] ≠ []) with
  | nil => rw [restore_nil]
  | occurrence s ih =>
    unfold withoutBackslashes at ih ⊢
    rw [restore_tableEnd, List.filter_append, List.filter_append, ih]
    rfl
  | copied c s h ih =>
    unfold withoutBackslashes at ih ⊢
    rw [restore_cons h, List.filter_cons, List.filter_cons, ih]

/-- Escaping literals and restoring the ends of table definitions changes backslashes only. -/
theorem withoutBackslashes_escapeStage (s : List Char) :
    withoutBackslashes (escapeStage s) = withoutBackslashes s := by
  rw [escapeStage_eq, withoutBackslashes_restore, (pads_escapeLiterals false s).withoutBackslashes]

end ExperimentKpi.Query
