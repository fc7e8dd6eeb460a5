/-
# Literals and what stands between them

A text is read as literals with text before, between and behind them (`reading`); a quote that starts
no literal is such text. Which bodies a literal may have is a parameter: the reader accepts every body,
escaping only those in which no backslash takes a line feed.

Escaping and restoring act on the parts of a reading one by one (`reading_escapeLiterals`,
`reading_restore`). So where no literal takes a line feed, sanitizing leaves everything outside of
literals as it is, but for the ends of table definitions (`outside_sanitize`); a literal that takes one
is not found by escaping, which then pairs the quotes behind it in another way.

Read as escaping does, every text has the same parts after a second round as after the first
(`escapeStage_escapeStage`), so it is the decoding alone that can make a second sanitizing change
something: sanitizing is idempotent on a text exactly if no entity is left in the result
(`sanitize_sanitize_iff`). The first round makes none (`infix_of_infix_escapeStage`), so it is on all
texts without entities (`escapeStage_again`).

Key definitions: `Query.Reading`, `Query.reading`.
Key theorems: `Query.reading_escapeLiterals`, `Query.reading_restore`, `Query.outside_sanitize`,
`Query.escapeStage_escapeStage`, `Query.sanitize_sanitize_iff`, `Query.escapeStage_again`.
-/
import ExperimentKpi.Proofs.Query.Padding
import Mathlib.Data.List.Infix

namespace ExperimentKpi.Query

/-- The text before the first literal, and the body of every literal with the text behind it. -/
@[ext] structure Reading where
  lead : List Char
  literals : List (List Char × List Char)
deriving DecidableEq, Repr

namespace Reading

/-- The text that was read. -/
def text (r : Reading) : List Char :=
  r.lead ++ r.literals.flatMap fun (body, behind) => '\'' :: (body ++ '\'' :: behind)

/-- The texts outside of literals. -/
def outside (r : Reading) : List (List Char) :=
  r.lead :: r.literals.map Prod.snd

/-- The bodies of the literals. -/
def bodies (r : Reading) : List (List Char) :=
  r.literals.map Prod.fst

/-- The reading with other texts and other bodies. -/
def map (outside body : List Char → List Char) (r : Reading) : Reading :=
  ⟨outside r.lead, r.literals.map fun (b, behind) => (body b, outside behind)⟩

/-- The reading with more text in front. -/
def prepend (s : List Char) (r : Reading) : Reading :=
  { r with lead := s ++ r.lead }

/-- The reading with a literal in front. -/
def opened (body : List Char) (r : Reading) : Reading :=
  ⟨[], (body, r.lead) :: r.literals⟩

@[simp] theorem text_prepend (s : List Char) (r : Reading) : (r.prepend s).text = s ++ r.text :=
  List.append_assoc _ _ _

@[simp] theorem text_opened (body : List Char) (r : Reading) :
    (r.opened body).text = '\'' :: (body ++ '\'' :: r.text) := by
  simp [text, opened]

@[simp] theorem bodies_prepend (s : List Char) (r : Reading) : (r.prepend s).bodies = r.bodies :=
  rfl

@[simp] theorem bodies_opened (body : List Char) (r : Reading) :
    (r.opened body).bodies = body :: r.bodies := rfl

@[simp] theorem bodies_map (f g : List Char → List Char) (r : Reading) :
    (r.map f g).bodies = r.bodies.map g := by
  simp [bodies, map]

@[simp] theorem outside_map (f g : List Char → List Char) (r : Reading) :
    (r.map f g).outside = r.outside.map f := by
  simp [outside, map]

theorem map_map (f g f' g' : List Char → List Char) (r : Reading) :
    (r.map f g).map f' g' = r.map (f' ∘ f) (g' ∘ g) := by
  simp [map]

theorem map_opened (f g : List Char → List Char) (hf : f [] = []) (body : List Char) (r : Reading) :
    (r.opened body).map f g = (r.map f g).opened (g body) := by
  simp [map, opened, hf]

theorem map_prepend {f : List Char → List Char} (g : List Char → List Char) {s s' : List Char}
    {r : Reading} (h : f (s ++ r.lead) = s' ++ f r.lead) :
    (r.prepend s).map f g = (r.map f g).prepend s' := by
  simp [map, prepend, h]

end Reading

/-- A literal after its opening quote, if its body is accepted. -/
def literal? (accepts : List Char → Bool) (s : List Char) : Option (List Char × List Char) :=
  (closing? s).filter fun p => accepts p.1

theorem literal?_eq_some_iff {accepts : List Char → Bool} {s body rest : List Char} :
    literal? accepts s = some (body, rest) ↔
      closing? s = some (body, rest) ∧ accepts body = true := by
  rw [literal?, Option.filter_eq_some_iff]

/-- A text as literals whose bodies are accepted. -/
def reading (accepts : List Char → Bool) (s : List Char) : Reading :=
  match s with
  | [] => ⟨[], []⟩
  | c :: r =>
    if c = '\'' then
      match _h : literal? accepts r with
      | some (body, rest) => (reading accepts rest).opened body
      | none => (reading accepts r).prepend [c]
    else (reading accepts r).prepend [c]
termination_by s.length
decreasing_by
  · rw [closing?_append (literal?_eq_some_iff.mp _h).1]
    simp only [List.length_cons, List.length_append]
    omega
  · simp
  · simp

/-- The reader accepts every body. -/
def anyBody (_ : List Char) : Bool := true

/-- Escaping accepts the bodies in which no backslash takes a line feed. -/
def unbroken (body : List Char) : Bool := breaksUntaken false body

theorem literalBody?_eq_literal? (s : List Char) : literalBody? s = literal? unbroken s :=
  literalBody?_eq_filter s

section

variable {accepts : List Char → Bool}

@[simp] theorem reading_nil : reading accepts [] = ⟨[], []⟩ := by rw [reading]

theorem reading_cons {c : Char} (h : c ≠ '\'') (r : List Char) :
    reading accepts (c :: r) = (reading accepts r).prepend [c] := by
  rw [reading, if_neg h]

theorem reading_literal {r body rest : List Char} (h : literal? accepts r = some (body, rest)) :
    reading accepts ('\'' :: r) = (reading accepts rest).opened body := by
  rw [reading, if_pos rfl]
  split
  · simp_all
  · simp_all

theorem reading_quote {r : List Char} (h : literal? accepts r = none) :
    reading accepts ('\'' :: r) = (reading accepts r).prepend ['\''] := by
  rw [reading, if_pos rfl]
  split
  · simp_all
  · rfl

/-- The three ways in which reading goes on: behind a literal, by a quote that starts none, or by
another character. -/
theorem reading_induction (accepts : List Char → Bool) {motive : List Char → Prop}
    (nil : motive [])
    (literal : ∀ body rest, literal? accepts (body ++ '\'' :: rest) = some (body, rest) →
      motive rest → motive ('\'' :: (body ++ '\'' :: rest)))
    (quote : ∀ r, literal? accepts r = none → motive r → motive ('\'' :: r))
    (other : ∀ c r, c ≠ '\'' → motive r → motive (c :: r)) (s : List Char) : motive s := by
  fun_induction reading accepts s with
  | case1 => exact nil
  | case2 r body rest h ih =>
    obtain rfl := closing?_append (literal?_eq_some_iff.mp h).1
    exact literal body rest h ih
  | case3 r h ih => exact quote r h ih
  | case4 c r hc ih => exact other c r hc ih

/-- The parts of a reading make up the text. -/
theorem text_reading (accepts : List Char → Bool) (s : List Char) :
    (reading accepts s).text = s := by
  induction s using reading_induction accepts with
  | nil => simp [Reading.text]
  | literal body rest h ih => rw [reading_literal h, Reading.text_opened, ih]
  | quote r h ih => rw [reading_quote h, Reading.text_prepend, ih]; rfl
  | other c r hc ih => rw [reading_cons hc, Reading.text_prepend, ih]; rfl

theorem accepts_of_mem_bodies {s b : List Char} (h : b ∈ (reading accepts s).bodies) :
    accepts b = true := by
  induction s using reading_induction accepts with
  | nil => rw [reading_nil] at h; exact absurd h List.not_mem_nil
  | literal body rest hl ih =>
    rw [reading_literal hl, Reading.bodies_opened, List.mem_cons] at h
    obtain rfl | h := h
    · exact (literal?_eq_some_iff.mp hl).2
    · exact ih h
  | quote r hr ih => rw [reading_quote hr] at h; exact ih h
  | other c r hc ih => rw [reading_cons hc] at h; exact ih h

/-- The reader's literals are those of its reading. -/
theorem bodies_reading (s : List Char) : (reading anyBody s).bodies = literals s := by
  have hany (r : List Char) : literal? anyBody r = closing? r := by
    unfold literal? anyBody
    cases closing? r <;> rfl
  induction s using reading_induction anyBody with
  | nil => rw [reading_nil, literals_nil]; rfl
  | literal body rest h ih =>
    rw [reading_literal h, Reading.bodies_opened, ih, literals_closed (hany _ ▸ h)]
  | quote r h ih =>
    rw [reading_quote h, Reading.bodies_prepend, ih, literals_unclosed (hany _ ▸ h)]
  | other c r hc ih => rw [reading_cons hc, Reading.bodies_prepend, ih, literals_cons hc]

theorem reading_append {p : List Char} (h : '\'' ∉ p) (s : List Char) :
    reading accepts (p ++ s) = (reading accepts s).prepend p := by
  induction p with
  | nil => rfl
  | cons c p ih =>
    rw [List.mem_cons, not_or] at h
    rw [List.cons_append, reading_cons (Ne.symm h.1), ih h.2]
    rfl

/-- The text before the first literal is the beginning of the text. -/
theorem lead_starts (accepts : List Char → Bool) (s : List Char) :
    (reading accepts s).lead <+: s := by
  refine ⟨(reading accepts s).literals.flatMap fun (body, behind) => '\'' :: (body ++ '\'' :: behind),
    ?_⟩
  exact text_reading accepts s

/-! ### Escaping and restoring, part by part -/

/-- A reading that escaping and restoring respect: what they do to a body decides nothing, and every
body that escaping works on is accepted. -/
structure Respected (accepts : List Char → Bool) : Prop where
  pads : ∀ {s s' : List Char}, Pads false s s' → accepts s' = accepts s
  restore : ∀ s : List Char, accepts (restore s) = accepts s
  unbroken : ∀ {s : List Char}, unbroken s = true → accepts s = true

theorem respected_anyBody : Respected anyBody := ⟨fun _ => rfl, fun _ => rfl, fun _ => rfl⟩

theorem respected_unbroken : Respected unbroken :=
  ⟨Pads.breaksUntaken, breaksUntaken_restore false, id⟩

/-- Where no accepted literal takes a line feed, escaping acts on the bodies of the literals and on
nothing else. -/
theorem reading_escapeLiterals (ha : Respected accepts) {s : List Char}
    (h : ∀ b ∈ (reading accepts s).bodies, unbroken b = true) :
    reading accepts (escapeLiterals s) = (reading accepts s).map id escapeBody := by
  induction s using reading_induction accepts with
  | nil => rw [escapeLiterals, reading_nil]; rfl
  | literal body rest hl ih =>
    obtain ⟨hclosing, hbody⟩ := literal?_eq_some_iff.mp hl
    rw [reading_literal hl, Reading.bodies_opened] at h
    have hu : unbroken body = true := h body List.mem_cons_self
    have hfound : literalBody? (body ++ '\'' :: rest) = some (body, rest) := by
      rw [literalBody?_eq_literal?]
      exact literal?_eq_some_iff.mpr ⟨hclosing, hu⟩
    have hnew : literal? accepts (escapeBody body ++ '\'' :: escapeLiterals rest) =
        some (escapeBody body, escapeLiterals rest) :=
      literal?_eq_some_iff.mpr
        ⟨closing?_escapeBody hclosing, (ha.pads (pads_escapeBody body)).trans hbody⟩
    rw [escapeLiterals_literal hfound, reading_literal hnew, reading_literal hl,
      Reading.map_opened _ _ rfl, ih fun b hb => h b (List.mem_cons_of_mem _ hb)]
  | quote r hr ih =>
    rw [reading_quote hr] at h
    have hnone : literalBody? r = none := by
      rw [literalBody?_eq_literal?]
      cases hu : literal? unbroken r with
      | none => rfl
      | some p =>
        obtain ⟨hclosing, hp⟩ := literal?_eq_some_iff.mp hu
        rw [literal?_eq_some_iff.mpr ⟨hclosing, ha.unbroken hp⟩] at hr
        cases hr
    have hnew : literal? accepts (escapeLiterals r) = none := by
      have hrel := (pads_escapeLiterals false r).closing?
      unfold literal? at hr ⊢
      cases hc : closing? r <;> cases hc' : closing? (escapeLiterals r) <;> rw [hc, hc'] at hrel
      · rfl
      · cases hrel
      · cases hrel
      · cases hrel with
        | some hp =>
          rw [hc, Option.filter_some] at hr
          rw [Option.filter_some, ha.pads hp.1]
          simpa using hr
    rw [escapeLiterals_quote hnone, reading_quote hnew, reading_quote hr, ih h]
    rfl
  | other c r hc ih =>
    rw [reading_cons hc] at h
    rw [escapeLiterals_cons hc, reading_cons hc, reading_cons hc, ih h]
    rfl

/-- Restoring the ends of table definitions acts on every part of a reading. -/
theorem reading_restore (ha : Respected accepts) (s : List Char) :
    reading accepts (restore s) = (reading accepts s).map restore restore := by
  have hfind (r : List Char) : literal? accepts (restore r) =
      (literal? accepts r).map fun (body, rest) => (restore body, restore rest) := by
    unfold literal?
    rw [closing?_restore]
    cases closing? r with
    | none => rfl
    | some p => cases hp : accepts p.1 <;> simp [Option.filter_some, ha.restore, hp]
  induction hn : s.length using Nat.strong_induction_on generalizing s with
  | _ n ih =>
    subst hn
    by_cases hp : tableEnd ['\\'] <+: s
    · obtain ⟨t, rfl⟩ := hp
      have hlen : t.length < (tableEnd ['\\'] ++ t).length := by
        rw [List.length_append]
        exact Nat.lt_add_of_pos_left (by decide)
      rw [restore_tableEnd, reading_append (by decide), reading_append (by decide),
        ih t.length hlen t rfl, Reading.map_prepend _ (restore_tableEnd _)]
    cases s with
    | nil => rw [restore_nil, reading_nil]; simp [Reading.map]
    | cons c r =>
      have hpush : restore ([c] ++ (reading accepts r).lead) =
          [c] ++ restore (reading accepts r).lead := by
        refine restore_cons fun hlead => hp (hlead.trans ?_)
        exact List.cons_prefix_cons.mpr ⟨rfl, lead_starts accepts r⟩
      rw [restore_cons hp]
      by_cases hc : c = '\''
      · subst hc
        cases hl : literal? accepts r with
        | none =>
          rw [reading_quote hl, reading_quote (by rw [hfind, hl]; rfl),
            ih r.length (by simp) r rfl, Reading.map_prepend _ hpush]
        | some p =>
          obtain ⟨body, rest⟩ := p
          have hlen : rest.length < ('\'' :: r).length := by
            rw [closing?_append (literal?_eq_some_iff.mp hl).1]
            simp only [List.length_cons, List.length_append]
            omega
          rw [reading_literal hl, reading_literal (by rw [hfind, hl]; rfl),
            ih rest.length hlen rest rfl, Reading.map_opened _ _ restore_nil]
      · rw [reading_cons hc, reading_cons hc, ih r.length (by simp) r rfl,
          Reading.map_prepend _ hpush]

theorem reading_escapeStage (ha : Respected accepts) {s : List Char}
    (h : ∀ b ∈ (reading accepts s).bodies, unbroken b = true) :
    reading accepts (escapeStage s) = (reading accepts s).map restore (restore ∘ escapeBody) := by
  rw [escapeStage_eq, reading_restore ha, reading_escapeLiterals ha h, Reading.map_map]
  rfl

end

/-! ### Text outside of literals -/

/-- **Text outside of literals is untouched** where no literal of the decoded text takes a line feed:
the texts outside of literals are those of the decoded text, with the semicolons of table definitions'
ends restored, and the literals between them are escaped. -/
theorem outside_sanitize {t : List Char}
    (h : ∀ body ∈ literals (decodeEntities t), breaksUntaken false body = true) :
    (reading anyBody (sanitize t)).outside =
        (reading anyBody (decodeEntities t)).outside.map restore ∧
      (reading anyBody (sanitize t)).bodies =
        (reading anyBody (decodeEntities t)).bodies.map (restore ∘ escapeBody) ∧
      (reading anyBody (sanitize t)).text = sanitize t ∧
      (reading anyBody (decodeEntities t)).text = decodeEntities t := by
  have hreading : reading anyBody (sanitize t) =
      (reading anyBody (decodeEntities t)).map restore (restore ∘ escapeBody) := by
    refine reading_escapeStage respected_anyBody fun b hb => h b ?_
    rwa [← bodies_reading]
  refine ⟨?_, ?_, text_reading _ _, text_reading _ _⟩
  · rw [hreading, Reading.outside_map]
  · rw [hreading, Reading.bodies_map]

/-- An entity in a literal, and the end of a table definition outside of one. -/
theorem outside_sanitize_entity :
    (∀ body ∈ literals (decodeEntities "a; '&amp;lt;;' RCFILE\n\\; b".toList),
        breaksUntaken false body = true) ∧
      (reading anyBody (sanitize "a; '&amp;lt;;' RCFILE\n\\; b".toList)).outside =
        ["a; ".toList, " RCFILE\n; b".toList] := by
  have hdecode : decodeEntities "a; '&amp;lt;;' RCFILE\n\\; b".toList =
      "a; '<;' RCFILE\n\\; b".toList := by decide +kernel
  have hreading : reading anyBody "a; '<;' RCFILE\n\\; b".toList =
      ⟨"a; ".toList, [("<;".toList, " RCFILE\n\\; b".toList)]⟩ := by decide +kernel
  have hbodies : ∀ body ∈ literals (decodeEntities "a; '&amp;lt;;' RCFILE\n\\; b".toList),
      breaksUntaken false body = true := by
    rw [hdecode, ← bodies_reading, hreading]
    decide
  refine ⟨hbodies, ?_⟩
  rw [(outside_sanitize hbodies).1, hdecode, hreading]
  decide +kernel

/-- A literal that takes a line feed is not found: the semicolon behind it is escaped. -/
theorem outside_sanitize_broken :
    (reading anyBody (decodeEntities "'a\\\nb' ; 'c'".toList)).outside = [[], " ; ".toList, []] ∧
      (reading anyBody (sanitize "'a\\\nb' ; 'c'".toList)).outside = [[], " \\; ".toList, []] ∧
      (reading anyBody (sanitize "'a\\\nb' ; 'c'".toList)).outside ≠
        (reading anyBody (decodeEntities "'a\\\nb' ; 'c'".toList)).outside.map restore := by
  have hdecoded : (reading anyBody (decodeEntities "'a\\\nb' ; 'c'".toList)).outside =
      [[], " ; ".toList, []] := by decide +kernel
  have hsanitized : (reading anyBody (sanitize "'a\\\nb' ; 'c'".toList)).outside =
      [[], " \\; ".toList, []] := by decide +kernel
  have hrestored : [[], " ; ".toList, []].map restore = [[], " ; ".toList, []] := by decide +kernel
  refine ⟨hdecoded, hsanitized, ?_⟩
  rw [hdecoded, hsanitized, hrestored]
  decide

/-! ### A second round -/

theorem prefix_restore_iff {p : List Char} (h : 'R' ∉ p) {s : List Char} :
    p <+: restore s ↔ p <+: s := by
  induction p generalizing s with
  | nil => simp
  | cons d p ih =>
    rw [List.mem_cons, not_or] at h
    cases s with
    | nil => rw [restore_nil]
    | cons c s =>
      by_cases hc : c = 'R'
      · have hhead := head?_restore (c :: s)
        obtain ⟨s', hs'⟩ := List.head?_eq_some_iff.mp hhead
        rw [hs', hc, List.cons_prefix_cons, List.cons_prefix_cons]
        exact ⟨fun hp => absurd hp.1.symm h.1, fun hp => absurd hp.1.symm h.1⟩
      · rw [restore_cons_of_ne hc, List.cons_prefix_cons, List.cons_prefix_cons, ih h.2]

theorem restore_restore (s : List Char) : restore (restore s) = restore s := by
  induction s using replaceAll_induction (by decide : tableEnd ['\\'] ≠ []) with
  | nil => rw [restore_nil, restore_nil]
  | occurrence s ih =>
    rw [restore_tableEnd]
    have hcopy (s : List Char) : restore (tableEnd [] ++ s) = tableEnd [] ++ restore s := by
      have hp : ¬ tableEnd ['\\'] <+: tableEnd [] ++ s := by simp [tableEnd]
      simp only [tableEnd, List.append_nil, List.cons_append, List.nil_append] at hp ⊢
      rw [restore_cons hp]
      repeat rw [restore_cons_of_ne (by decide)]
    rw [hcopy, ih]
  | copied c s h ih =>
    rw [restore_cons h]
    have hp : ¬ tableEnd ['\\'] <+: c :: restore s := by
      intro hp
      obtain ⟨hc, hp⟩ := List.cons_prefix_cons.mp hp
      refine h (List.cons_prefix_cons.mpr ⟨hc, (prefix_restore_iff (by decide)).mp hp⟩)
    rw [restore_cons hp, ih]

theorem escapeBody_escapeBody (s : List Char) : escapeBody (escapeBody s) = escapeBody s := by
  have hhead {c : Char} {r : List Char} (h : ∀ r', c = '-' → r = '-' :: r' → False) :
      c = '-' → (escapeBody r).head? ≠ some '-' := by
    intro hc hr
    obtain ⟨t, ht⟩ := List.head?_eq_some_iff.mp (head?_escapeBody hr)
    exact h t hc ht
  fun_induction escapeBody s with
  | case1 r ih => rw [escapeBody, ih]
  | case2 c r h ih => rw [escapeBody_escaped (hhead h), ih]
  | case3 r ih => rw [escapeBody_escaped (by simp), ih]
  | case4 r ih => rw [escapeBody, ih]
  | case5 c r _ hb hs hd ih =>
    have hback : c = '\\' → escapeBody r = [] := by
      intro hc
      cases r with
      | nil => rfl
      | cons d r => exact absurd rfl (hb d r hc)
    rw [escapeBody_plain (by simpa using hs) hback (hhead hd), ih]
  | case6 => rfl

/-- Escaping puts a backslash before the semicolon at the end of a table definition, unless it has one. -/
theorem escapeBody_tableEnd {lead before : List Char} (hl : lead = [] ∨ lead = ['\\'])
    (hb : before = [] ∨ before = ['\\']) (t : List Char) :
    escapeBody (lead ++ (tableEnd before ++ t)) = lead ++ (tableEnd ['\\'] ++ escapeBody t) := by
  rcases hl with rfl | rfl <;> rcases hb with rfl | rfl <;> simp [tableEnd, escapeBody]

/-- Escaping puts back what restoring takes from an escaped body. -/
theorem escapeBody_restore (s : List Char) (h : escapeBody s = s) :
    escapeBody (restore s) = s := by
  induction s using restore_induction with
  | nil => rw [restore_nil]; rfl
  | occurrence lead t hl ih =>
    rw [escapeBody_tableEnd hl (.inr rfl), List.append_cancel_left_eq,
      List.append_cancel_left_eq] at h
    rw [restore_occurrence hl, escapeBody_tableEnd hl (.inl rfl), ih h]
  | dashes r ih =>
    rw [escapeBody] at h
    simp only [List.cons.injEq, true_and] at h
    rw [restore_cons_of_ne (by decide), restore_cons_of_ne (by decide),
      restore_cons_of_ne (by decide), escapeBody, ih h]
  | escaped c r hhead hp ih =>
    rw [escapeBody_escaped hhead] at h
    simp only [List.cons.injEq, true_and] at h
    rw [restore_cons_of_ne (by decide), restore_cons hp,
      escapeBody_escaped (by rwa [head?_restore]), ih h]
  | plain c r hback hp ih =>
    -- The body is escaped, so no semicolon and no pair of dashes starts it.
    have hsemicolon : c ≠ ';' := by
      rintro rfl
      rw [escapeBody] at h
      exact absurd (List.cons.inj h).1 (by decide)
    have hhead : c = '-' → r.head? ≠ some '-' := by
      rintro rfl hr
      obtain ⟨t, rfl⟩ := List.head?_eq_some_iff.mp hr
      rw [escapeBody] at h
      exact absurd (List.cons.inj h).1 (by decide)
    rw [escapeBody_plain hsemicolon hback hhead] at h
    rw [restore_cons hp, escapeBody_plain hsemicolon (fun hc => by rw [hback hc, restore_nil])
      (by rwa [head?_restore]), ih (List.cons.inj h).2]

/-- **Escaping and restoring a second time changes nothing**, whatever the text. -/
theorem escapeStage_escapeStage (s : List Char) : escapeStage (escapeStage s) = escapeStage s := by
  have hbody (b : List Char) :
      restore (escapeBody (restore (escapeBody b))) = restore (escapeBody b) := by
    rw [escapeBody_restore _ (escapeBody_escapeBody b)]
  have haccepted (s : List Char) : ∀ b ∈ (reading unbroken s).bodies, unbroken b = true :=
    fun b hb => accepts_of_mem_bodies hb
  have honce := reading_escapeStage respected_unbroken (haccepted s)
  have htwice := reading_escapeStage respected_unbroken (haccepted (escapeStage s))
  rw [honce, Reading.map_map] at htwice
  have hsame : reading unbroken (escapeStage (escapeStage s)) = reading unbroken (escapeStage s) := by
    rw [htwice, honce]
    congr 1
    · exact funext restore_restore
    · exact funext hbody
  rw [← text_reading unbroken (escapeStage (escapeStage s)), hsame, text_reading]

/-- **Sanitizing a second time changes nothing exactly if the first time left no entity.** Entities
encoded more than twice are left. -/
theorem sanitize_sanitize_iff (t : List Char) :
    sanitize (sanitize t) = sanitize t ↔ ∀ e ∈ entities, ¬ e.1 <:+: sanitize t := by
  constructor
  · intro h
    by_contra hentity
    -- Decoding takes other characters than backslashes away, and the stage brings none back.
    have hchars : ∀ e ∈ entities, ∀ c ∈ e.1, (c != '\\') = true := by simp [entities]
    have hlt : (withoutBackslashes (decodeEntities (sanitize t))).length <
        (withoutBackslashes (sanitize t)).length := length_filter_decodeEntities_lt hchars hentity
    have hsame : withoutBackslashes (sanitize (sanitize t)) =
        withoutBackslashes (decodeEntities (sanitize t)) := withoutBackslashes_escapeStage _
    rw [← hsame, h] at hlt
    exact Nat.lt_irrefl _ hlt
  · intro h
    have hdecode : decodeEntities (sanitize t) = sanitize t := decodeEntities_eq_self_iff.mpr h
    calc sanitize (sanitize t) = escapeStage (decodeEntities (sanitize t)) := rfl
      _ = escapeStage (sanitize t) := by rw [hdecode]
      _ = escapeStage (escapeStage (decodeEntities t)) := rfl
      _ = escapeStage (decodeEntities t) := escapeStage_escapeStage _
      _ = sanitize t := rfl

/-- An entity that was encoded three times more is decoded in two steps. -/
theorem sanitize_sanitize_encoded :
    sanitize "&amp;amp;amp;lt;".toList = "&amp;lt;".toList ∧
      sanitize (sanitize "&amp;amp;amp;lt;".toList) = "<".toList ∧
      sanitize (sanitize "&amp;amp;amp;lt;".toList) ≠ sanitize "&amp;amp;amp;lt;".toList := by
  have honce : sanitize "&amp;amp;amp;lt;".toList = "&amp;lt;".toList := by decide +kernel
  have htwice : sanitize "&amp;lt;".toList = "<".toList := by decide +kernel
  rw [honce, htwice]
  decide

/-- Restoring makes no entity. -/
theorem infix_of_infix_restore {e : List Char × Char} (he : e ∈ entities) {s : List Char}
    (h : e.1 <:+: restore s) : e.1 <:+: s := by
  have hR : ∀ e ∈ entities, 'R' ∉ e.1 := by decide
  induction s using replaceAll_induction (by decide : tableEnd ['\\'] ≠ []) with
  | nil => rwa [restore_nil] at h
  | occurrence s ih =>
    have hstart : ∀ {c : Char} {t : List Char}, c ∈ tableEnd [] → ¬ e.1 <+: c :: t := by
      intro c t hc hp
      have hhead : ∀ e ∈ entities, e.1.head? = some '&' := by decide
      obtain ⟨r, hr⟩ := List.head?_eq_some_iff.mp (hhead e he)
      rw [hr] at hp
      obtain ⟨rfl, -⟩ := List.cons_prefix_cons.mp hp
      exact absurd hc (by decide)
    have hskip : ∀ p ⊆ tableEnd [], e.1 <:+: p ++ restore s → e.1 <:+: restore s := by
      intro p
      induction p with
      | nil => exact fun _ hi => hi
      | cons c p ihp =>
        intro hsub hi
        obtain ⟨hc, hsub⟩ := List.cons_subset.mp hsub
        exact ihp hsub ((List.infix_cons_iff.mp hi).resolve_left (hstart hc))
    rw [restore_tableEnd] at h
    exact (ih (hskip _ (List.Subset.refl _) h)).trans (List.suffix_append _ s).isInfix
  | copied c s hc ih =>
    rcases List.infix_cons_iff.mp (restore_cons hc ▸ h) with hp | hi
    · rw [← restore_cons hc, prefix_restore_iff (hR e he)] at hp
      exact hp.isInfix
    · exact List.infix_cons (ih hi)

/-- The stage behind decoding makes no entity. -/
theorem infix_of_infix_escapeStage {e : List Char × Char} (he : e ∈ entities) {s : List Char}
    (h : e.1 <:+: escapeStage s) : e.1 <:+: s := by
  have hback : ∀ e ∈ entities, '\\' ∉ e.1 := by decide
  exact (pads_escapeLiterals false s).isInfix (hback e he) (infix_of_infix_restore he h)

/-- **A second round of escaping and restoring changes nothing**, whatever the text, also where quotes
are left open or a backslash stands before a line feed. So sanitizing a second time changes nothing in
texts without entities. -/
theorem escapeStage_again (u : List Char) :
    escapeStage (escapeStage u) = escapeStage u ∧
      ((∀ e ∈ entities, ¬ e.1 <:+: u) → sanitize (sanitize u) = sanitize u) := by
  refine ⟨escapeStage_escapeStage u, fun hu => ?_⟩
  have honce : decodeEntities u = u := decodeEntities_eq_self_iff.mpr hu
  have htwice : decodeEntities (escapeStage u) = escapeStage u :=
    decodeEntities_eq_self_iff.mpr fun e he hi => hu e he (infix_of_infix_escapeStage he hi)
  calc sanitize (sanitize u) = escapeStage (decodeEntities (escapeStage (decodeEntities u))) := rfl
    _ = escapeStage (escapeStage u) := by rw [honce, htwice]
    _ = escapeStage u := escapeStage_escapeStage u
    _ = sanitize u := by rw [sanitize, honce]

/-- A literal with a broken line, behind it one with the end of a table definition, and an open quote. -/
theorem escapeStage_again_open :
    sanitize "'a\\\nb;' -- 'RCFILE\n;c--;' ; 'd;".toList =
        "'a\\\nb;' \\-- 'RCFILE\n;c--;' \\; 'd;".toList ∧
      sanitize (sanitize "'a\\\nb;' -- 'RCFILE\n;c--;' ; 'd;".toList) =
        sanitize "'a\\\nb;' -- 'RCFILE\n;c--;' ; 'd;".toList := by
  have hentities : ∀ e ∈ entities, ¬ e.1 <:+: "'a\\\nb;' -- 'RCFILE\n;c--;' ; 'd;".toList := by
    decide
  exact ⟨by decide +kernel, (escapeStage_again _).2 hentities⟩

end ExperimentKpi.Query
