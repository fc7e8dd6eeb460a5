/-
# Literals of sanitized text are safe

The warehouse's command line ends a statement at a semicolon and starts a comment at two dashes, also
inside a literal. The body of a literal is read as tokens: an escaped pair of dashes, a backslash with
the character behind it, or a plain character. In a safe body every semicolon is part of an escape,
the one behind the end of a table definition apart, and no plain dash stands before another dash.

Escaping leaves no plain semicolon at all (`guarded_escapeBody`); restoring the ends of table
definitions gives back only the semicolons that are allowed (`safeAfter_restore`). With the
correspondence of literals (`literals_escapeLiterals`, `literals_restore`) every literal of a
sanitized text is safe (`sanitize_isSafe`).

Key definitions: `Query.BodyToken`, `Query.bodyTokens`, `Query.BodyToken.IsSafe`, `Query.IsSafe`.
Key theorems: `Query.sanitize_isSafe`.
-/
import ExperimentKpi.Proofs.Query.Literals

namespace ExperimentKpi.Query

/-- The smallest parts of a literal's body. -/
inductive BodyToken where
  | dashes
  | escaped (c : Char)
  | plain (c : Char)
deriving DecidableEq, Repr

/-- The text of a token. -/
def BodyToken.source : BodyToken → List Char
  | dashes => ['\\', '-', '-']
  | escaped c => ['\\', c]
  | plain c => [c]

/-- The text of tokens. -/
def tokensSource (ts : List BodyToken) : List Char :=
  ts.flatMap BodyToken.source

/-- The tokens of a body, each as long as possible. -/
def bodyTokens : List Char → List BodyToken
  | '\\' :: '-' :: '-' :: r => .dashes :: bodyTokens r
  | '\\' :: c :: r => .escaped c :: bodyTokens r
  | c :: r => .plain c :: bodyTokens r
  | [] => []

/-- A token between two texts does no harm: a plain semicolon follows the end of a table definition,
and no dash follows a plain dash. -/
def BodyToken.IsSafe (before : List Char) (t : BodyToken) (after : List Char) : Prop :=
  (t = plain ';' → "RCFILE\n".toList <:+ before) ∧ (t = plain '-' → after.head? ≠ some '-')

/-- Every token of a body is safe where it stands. -/
def IsSafe (body : List Char) : Prop :=
  ∀ before t after, bodyTokens body = before ++ t :: after →
    t.IsSafe (tokensSource before) (tokensSource after)

theorem tokensSource_bodyTokens (s : List Char) : tokensSource (bodyTokens s) = s := by
  fun_induction bodyTokens s <;> simp_all [tokensSource, BodyToken.source]

/-! ### Token by token -/

/-- Every token is safe where it stands, behind the text `before`. -/
def SafeAfter (before : List Char) : List BodyToken → Prop
  | [] => True
  | t :: r => t.IsSafe before (tokensSource r) ∧ SafeAfter (before ++ t.source) r

theorem isSafe_of_safeAfter {body : List Char} (h : SafeAfter [] (bodyTokens body)) :
    IsSafe body := by
  suffices ∀ (ts : List BodyToken) (start : List Char), SafeAfter start ts →
      ∀ before t after, ts = before ++ t :: after →
        t.IsSafe (start ++ tokensSource before) (tokensSource after) from
    fun before t after he => this _ [] h before t after he
  intro ts
  induction ts with
  | nil => intro start _ before t after he; simp at he
  | cons t' r ih =>
    intro start hs before t after he
    rcases before with _ | ⟨u, before⟩
    · obtain ⟨rfl, rfl⟩ := List.cons.inj he
      simpa [tokensSource] using hs.1
    · obtain ⟨rfl, rfl⟩ := List.cons.inj he
      have := ih _ hs.2 before t after rfl
      simpa [tokensSource, List.append_assoc] using this

theorem bodyTokens_escaped {c : Char} {r : List Char} (h : c = '-' → r.head? ≠ some '-') :
    bodyTokens ('\\' :: c :: r) = .escaped c :: bodyTokens r := by
  rw [bodyTokens]
  intro r' hc hr
  subst hc hr
  exact h rfl rfl

theorem bodyTokens_plain {c : Char} {r : List Char} (h : c = '\\' → r = []) :
    bodyTokens (c :: r) = .plain c :: bodyTokens r := by
  rw [bodyTokens]
  · intro r' hc hr
    rw [h hc] at hr
    cases hr
  · intro d r' hc hr
    rw [h hc] at hr
    cases hr

/-! ### Escaping -/

/-- No token is a plain semicolon, and no dash follows a plain dash. -/
def Guarded : List BodyToken → Prop
  | [] => True
  | t :: r =>
    (t ≠ .plain ';' ∧ (t = .plain '-' → (tokensSource r).head? ≠ some '-')) ∧ Guarded r

/-- An escaped body has no plain semicolon and no plain pair of dashes. -/
theorem guarded_escapeBody (s : List Char) : Guarded (bodyTokens (escapeBody s)) := by
  fun_induction escapeBody s with
  | case1 r ih => exact ⟨⟨by simp, by simp⟩, ih⟩
  | case2 c r hd ih =>
    have hhead : c = '-' → (escapeBody r).head? ≠ some '-' := by
      intro hc hr
      obtain ⟨t, rfl⟩ := List.head?_eq_some_iff.mp (head?_escapeBody hr)
      exact hd t hc rfl
    rw [bodyTokens_escaped hhead]
    exact ⟨⟨by simp, by simp⟩, ih⟩
  | case3 r ih =>
    rw [bodyTokens_escaped (by simp)]
    exact ⟨⟨by simp, by simp⟩, ih⟩
  | case4 r ih => exact ⟨⟨by simp, by simp⟩, ih⟩
  | case5 c r _ hb hs hd ih =>
    have hc : c = '\\' → escapeBody r = [] := by
      intro hc
      cases r with
      | nil => rfl
      | cons d r => exact absurd rfl (hb d r hc)
    rw [bodyTokens_plain hc]
    refine ⟨⟨by simpa using hs, fun hm => ?_⟩, ih⟩
    rw [tokensSource_bodyTokens]
    intro hr
    obtain ⟨t, rfl⟩ := List.head?_eq_some_iff.mp (head?_escapeBody hr)
    exact hd t (by simpa using hm) rfl
  | case6 => trivial

/-! ### Restoring -/

theorem guarded_of_tableEnd {lead t : List Char} (hl : lead = [] ∨ lead = ['\\'])
    (h : Guarded (bodyTokens (lead ++ (tableEnd ['\\'] ++ t)))) : Guarded (bodyTokens t) := by
  rcases hl with rfl | rfl <;> simp [tableEnd, bodyTokens, Guarded] at h <;> exact h

/-- The semicolon that is restored stands behind the end of a table definition. -/
theorem safeAfter_tableEnd {lead t : List Char} (hl : lead = [] ∨ lead = ['\\'])
    (before : List Char) (h : ∀ before, SafeAfter before (bodyTokens t)) :
    SafeAfter before (bodyTokens (lead ++ (tableEnd [] ++ t))) := by
  rcases hl with rfl | rfl
  · simp [tableEnd, bodyTokens, SafeAfter, BodyToken.IsSafe, BodyToken.source, h]
  · have hsuffix : "RCFILE\n".toList <:+ before ++ ['\\'] ++ "RCFILE\n".toList := ⟨_, rfl⟩
    simpa [tableEnd, bodyTokens, SafeAfter, BodyToken.IsSafe, BodyToken.source, h] using hsuffix

/-- A guarded body is safe after restoring, whatever stands before it. -/
theorem safeAfter_restore (s : List Char) (hg : Guarded (bodyTokens s)) (before : List Char) :
    SafeAfter before (bodyTokens (restore s)) := by
  induction s using restore_induction generalizing before with
  | nil => simp [bodyTokens, SafeAfter]
  | occurrence lead t hl ih =>
    rw [restore_occurrence hl]
    exact safeAfter_tableEnd hl before (ih (guarded_of_tableEnd hl hg))
  | dashes r ih =>
    rw [restore_cons_of_ne (by decide), restore_cons_of_ne (by decide),
      restore_cons_of_ne (by decide)]
    exact ⟨⟨by simp, by simp⟩, ih hg.2 _⟩
  | escaped c r hhead hp ih =>
    rw [bodyTokens_escaped hhead] at hg
    rw [restore_cons_of_ne (by decide), restore_cons hp,
      bodyTokens_escaped (by rwa [head?_restore])]
    exact ⟨⟨by simp, by simp⟩, ih hg.2 _⟩
  | plain c r hback hp ih =>
    rw [bodyTokens_plain hback] at hg
    rw [restore_cons hp, bodyTokens_plain fun hc => by rw [hback hc, restore_nil]]
    refine ⟨⟨fun h => absurd h hg.1.1, fun h => ?_⟩, ih hg.2 _⟩
    rw [tokensSource_bodyTokens, head?_restore, ← tokensSource_bodyTokens r]
    exact hg.1.2 h

/-- The literals of a sanitized text are those of the decoded text, escaped and restored. -/
theorem literals_sanitize {t : List Char} (h : BreaksUnescaped t) :
    literals (sanitize t) = (literals (decodeEntities t)).map fun body => restore (escapeBody body) := by
  rw [sanitize, escapeStage_eq, literals_restore, literals_escapeLiterals h.decodeEntities,
    List.map_map]
  rfl

/-- **Sanitized text is safe inside literals.** In a text in which no backslash stands before a line
feed, the reader finds after sanitizing no plain semicolon, except behind the end of a table
definition, and no plain pair of dashes in any literal. -/
theorem sanitize_isSafe {t : List Char} (h : BreaksUnescaped t) :
    ∀ body ∈ literals (sanitize t), IsSafe body := by
  intro body hbody
  rw [literals_sanitize h] at hbody
  obtain ⟨b, -, rfl⟩ := List.mem_map.mp hbody
  exact isSafe_of_safeAfter (safeAfter_restore _ (guarded_escapeBody b) [])

/-- A literal that an entity opens, with a semicolon, three dashes, the end of a table definition and
an escaped quote. -/
theorem sanitize_isSafe_tableEnd :
    BreaksUnescaped "&apos;a&lt;;---RCFILE\n;\\'b'".toList ∧
      literals (sanitize "&apos;a&lt;;---RCFILE\n;\\'b'".toList) =
        ["a<\\;\\---RCFILE\n;\\'b".toList] ∧
      IsSafe "a<\\;\\---RCFILE\n;\\'b".toList := by
  have hb : BreaksUnescaped "&apos;a&lt;;---RCFILE\n;\\'b'".toList := by decide
  have hl : literals (sanitize "&apos;a&lt;;---RCFILE\n;\\'b'".toList) =
      ["a<\\;\\---RCFILE\n;\\'b".toList] := by decide +kernel
  refine ⟨hb, hl, sanitize_isSafe hb _ ?_⟩
  rw [hl]
  exact List.mem_singleton_self _

end ExperimentKpi.Query
