/-
# What sanitizing inserts and deletes

Behind the decoding of entities only backslashes come and go. One is put before a semicolon or a pair
of dashes that no backslash takes, and the one between `RCFILE`, a line feed and a semicolon goes;
every other character of the decoded text is copied once, in its order (`Edits`).

Escaping pads the text (`pads_escapeLiterals`). What restoring then takes out is either a backslash of
the padding, so that the end of a table definition is what it was, or one of the text
(`Pads.exists_of_tableEnd`). So the two stages together are one pass over the text
(`Pads.edits_restore`).

Key definition: `Query.Edits`.
Key theorems: `Query.Pads.edits_restore`, `Query.edits_sanitize`.
-/
import ExperimentKpi.Proofs.Query.Padding

namespace ExperimentKpi.Query

/-- The second text is the first with single backslashes put before semicolons and pairs of dashes that
no backslash takes, and without backslashes between `RCFILE` with a line feed and a semicolon. The flag
says whether a backslash takes the first character. -/
inductive Edits : Bool → List Char → List Char → Prop
  | nil (taken : Bool) : Edits taken [] []
  | keep {taken : Bool} (c : Char) {s s' : List Char} (rest : Edits (!taken && c == '\\') s s') :
    Edits taken (c :: s) (c :: s')
  | semicolon {s s' : List Char} (rest : Edits false s s') :
    Edits false (';' :: s) ('\\' :: ';' :: s')
  | dashes {s s' : List Char} (rest : Edits false s s') :
    Edits false ('-' :: '-' :: s) ('\\' :: '-' :: '-' :: s')
  | tableEnd {taken : Bool} {s s' : List Char} (rest : Edits false s s') :
    Edits taken (tableEnd ['\\'] ++ s) (tableEnd [] ++ s')

variable {taken : Bool} {c : Char} {p s t : List Char}

namespace Edits

/-- A character that is no backslash, kept behind one that is not taken. -/
theorem keep_plain (h : c ≠ '\\') (rest : Edits false s t) : Edits taken (c :: s) (c :: t) := by
  have hflag : (!taken && c == '\\') = false := by
    rw [beq_eq_false_iff_ne.mpr h, Bool.and_false]
  apply keep
  rw [hflag]
  exact rest

/-- A text without backslashes stays in front of an edited one. -/
theorem append_plain (hp : '\\' ∉ c :: p) (rest : Edits false s t) :
    Edits taken (c :: p ++ s) (c :: p ++ t) := by
  induction p generalizing c taken with
  | nil =>
    have hc : c ≠ '\\' := fun h => hp (h ▸ List.mem_cons_self)
    exact keep_plain hc rest
  | cons d p ih =>
    have hc : c ≠ '\\' := fun h => hp (h ▸ List.mem_cons_self)
    have htail : '\\' ∉ d :: p := fun h => hp (List.mem_cons_of_mem c h)
    exact keep_plain hc (ih htail)

/-- A character that starts no edit leaves the texts behind it edited. -/
theorem of_keep_plain (h : Edits taken (c :: s) (c :: t)) (hb : c ≠ '\\') (hr : c ≠ 'R') :
    Edits false s t := by
  generalize hs : c :: s = s₀ at h
  generalize ht : c :: t = t₀ at h
  cases h with
  | nil => cases hs
  | keep d rest =>
    obtain ⟨rfl, rfl⟩ := List.cons.inj hs
    obtain ⟨-, rfl⟩ := List.cons.inj ht
    have hflag : (!taken && c == '\\') = false := by
      rw [beq_eq_false_iff_ne.mpr hb, Bool.and_false]
    rwa [hflag] at rest
  | semicolon => exact absurd (List.cons.inj ht).1 hb
  | dashes => exact absurd (List.cons.inj ht).1 hb
  | tableEnd => exact absurd (List.cons.inj hs).1 hr

end Edits

namespace Pads

theorem exists_of_cons (hc : c ≠ '\\') (h : Pads taken s (c :: t)) :
    ∃ s', s = c :: s' ∧ Pads false s' t := by
  cases h with
  | keep _ rest => exact ⟨_, rfl, of_keep_plain (keep c rest) hc⟩
  | semicolon => exact absurd rfl hc
  | dashes => exact absurd rfl hc

/-- What a padded text has in front without backslashes, the text has in front as well. -/
theorem exists_of_append (hp : '\\' ∉ c :: p) (h : Pads taken s (c :: p ++ t)) :
    ∃ s', s = c :: p ++ s' ∧ Pads false s' t := by
  induction p generalizing c s taken with
  | nil =>
    have hc : c ≠ '\\' := fun h => hp (h ▸ List.mem_cons_self)
    exact h.exists_of_cons hc
  | cons d p ih =>
    have hc : c ≠ '\\' := fun h => hp (h ▸ List.mem_cons_self)
    have htail : '\\' ∉ d :: p := fun h => hp (List.mem_cons_of_mem c h)
    obtain ⟨s', rfl, hrest⟩ := h.exists_of_cons hc
    obtain ⟨s'', rfl, hbehind⟩ := ih htail hrest
    exact ⟨s'', rfl, hbehind⟩

/-- Where a padded text has a backslash at the end of a table definition, the text has this end with the
backslash, or without it. -/
theorem exists_of_tableEnd (h : Pads taken s (tableEnd ['\\'] ++ t)) :
    ∃ before s', (before = [] ∨ before = ['\\']) ∧ s = tableEnd before ++ s' ∧ Pads false s' t := by
  have hline : tableEnd ['\\'] ++ t = ['R', 'C', 'F', 'I', 'L', 'E', '\n'] ++ '\\' :: ';' :: t := rfl
  rw [hline] at h
  obtain ⟨s', rfl, hbehind⟩ := exists_of_append (by decide) h
  cases hbehind with
  | keep _ rest =>
    obtain ⟨s'', rfl, hrest⟩ := exists_of_append (p := []) (by decide) rest
    exact ⟨['\\'], s'', .inr rfl, rfl, hrest⟩
  | semicolon rest => exact ⟨[], _, .inl rfl, rfl, rest⟩

/-- **Restoring a padded text leaves an edited one.** -/
theorem edits_restore (h : Pads taken s t) : Edits taken s (restore t) := by
  induction t using replaceAll_induction (by decide : tableEnd ['\\'] ≠ []) generalizing taken s with
  | nil =>
    cases h
    rw [restore_nil]
    exact .nil taken
  | occurrence t ih =>
    obtain ⟨before, s', hbefore, rfl, hrest⟩ := h.exists_of_tableEnd
    rw [restore_tableEnd]
    rcases hbefore with rfl | rfl
    · -- the padding put the backslash there
      exact Edits.append_plain (by decide) (ih hrest)
    · exact .tableEnd (ih hrest)
  | copied c t hc ih =>
    rw [restore_cons hc]
    cases h with
    | keep _ rest => exact .keep c (ih rest)
    | @semicolon s t rest =>
      have hkept : Edits false (';' :: s) (restore (';' :: t)) := ih (keep_plain (by decide) rest)
      rw [restore_cons_of_ne (by decide)] at hkept ⊢
      exact .semicolon (hkept.of_keep_plain (by decide) (by decide))
    | @dashes s t rest =>
      have hdash : Pads false ('-' :: s) ('-' :: t) := keep_plain (by decide) rest
      have hkept : Edits false ('-' :: '-' :: s) (restore ('-' :: '-' :: t)) :=
        ih (keep_plain (by decide) hdash)
      rw [restore_cons_of_ne (by decide), restore_cons_of_ne (by decide)] at hkept ⊢
      have hsecond := hkept.of_keep_plain (by decide) (by decide)
      exact .dashes (hsecond.of_keep_plain (by decide) (by decide))

end Pads

/-- **Sanitizing loses and invents nothing but backslashes.** The query is the decoded text with single
backslashes put before semicolons and pairs of dashes, and without those between `RCFILE` with a line
feed and a semicolon; so the two are equal but for their backslashes. -/
theorem edits_sanitize (t : List Char) :
    Edits false (decodeEntities t) (sanitize t) ∧
      withoutBackslashes (sanitize t) = withoutBackslashes (decodeEntities t) := by
  have hpads : Pads false (decodeEntities t) (escapeLiterals (decodeEntities t)) :=
    pads_escapeLiterals false (decodeEntities t)
  exact ⟨hpads.edits_restore, withoutBackslashes_escapeStage (decodeEntities t)⟩

/-- A semicolon behind a backslash and two pairs of dashes in one literal; the end of a table definition
keeps its semicolon, whether a backslash stood before it or not. -/
example : sanitize "'a\\;b;c----' 'RCFILE\n;RCFILE\n\\;'".toList =
    "'a\\;b\\;c\\--\\--' 'RCFILE\n;RCFILE\n;'".toList := by decide +kernel

end ExperimentKpi.Query
