/-
# Encoded text is recovered

A form writes the five characters by their entities, the ampersand first (`encodeEntities`), and a form
inside a form does so twice. Decoding gives back what was typed, however often up to two times it was
encoded, as long as no ampersand was typed (`decodeEntities_encodeEntities`).

Encoding goes character by character (`iterate_encodeEntities`). Decoding does so too on what comes of
the characters: every ampersand there has its semicolon, at each of the ten replacements, so that no
entity stands across the boundary of two of them (`replaceAll_append_of_closed`,
`foldl_flatMap_of_staysClosed`). That leaves single characters, of which four have an entity
(`decodeEntities_iterate_singleton`).

Key definitions: `Query.encodeEntities`, `Query.Closed`, `Query.staysClosed`.
Key theorems: `Query.iterate_encodeEntities`, `Query.decodeEntities_iterate`,
`Query.decodeEntities_encodeEntities`.
-/
import Mathlib.Data.List.Infix
import Mathlib.Data.List.Iterate
import Mathlib.Data.List.Permutation
import Mathlib.Tactic.IntervalCases
import ExperimentKpi.Proofs.Query.Replacement

namespace ExperimentKpi.Query

/-! ### Encoding -/

/-- The entities with the ampersand's first, which would encode the others once more. -/
def encodingOrder : List (List Char × Char) :=
  entities.filter (·.2 == '&') ++ entities.filter (·.2 != '&')

/-- Every character that has an entity written by it, one character after the other. -/
def encodeEntities (s : List Char) : List Char :=
  encodingOrder.foldl (fun s e => replaceAll [e.2] e.1 s) s

variable {a p s : List Char}

/-- A single character is replaced in texts on their own. -/
theorem replaceAll_singleton_append (c : Char) (new a b : List Char) :
    replaceAll [c] new (a ++ b) = replaceAll [c] new a ++ replaceAll [c] new b := by
  apply replaceAll_append_of_apart (List.cons_ne_nil c [])
  intro l r hold hl hr _
  have hlen : l.length + r.length = 1 := by rw [← List.length_append, ← hold]; rfl
  have hlpos := List.length_pos_iff.mpr hl
  have hrpos := List.length_pos_iff.mpr hr
  omega

theorem encodeEntities_append (a b : List Char) :
    encodeEntities (a ++ b) = encodeEntities a ++ encodeEntities b := by
  unfold encodeEntities
  generalize encodingOrder = es
  induction es generalizing a b with
  | nil => rfl
  | cons e es ih =>
    rw [List.foldl_cons, replaceAll_singleton_append, ih]
    rfl

/-- Encoding writes character by character, however often. -/
theorem iterate_encodeEntities (n : ℕ) (p : List Char) :
    encodeEntities^[n] p = p.flatMap fun c => encodeEntities^[n] [c] := by
  have happend (a b : List Char) :
      encodeEntities^[n] (a ++ b) = encodeEntities^[n] a ++ encodeEntities^[n] b := by
    induction n generalizing a b with
    | zero => rfl
    | succ n ih => simp only [Function.iterate_succ_apply, encodeEntities_append, ih]
  have hnil : encodeEntities^[n] [] = [] := by
    have h := happend [] []
    simpa using h
  induction p with
  | nil => exact hnil
  | cons c p ih => rw [← List.singleton_append, happend, ih]; rfl

/-- A character that has no entity is written as it is. -/
theorem encodeEntities_singleton {c : Char} (h : ∀ e ∈ entities, e.2 ≠ c) :
    encodeEntities [c] = [c] := by
  have horder : ∀ e ∈ encodingOrder, e.2 ≠ c := by
    intro e he
    rcases List.mem_append.mp he with he | he
    · exact h e (List.mem_filter.mp he).1
    · exact h e (List.mem_filter.mp he).1
  unfold encodeEntities
  generalize encodingOrder = es at horder
  induction es with
  | nil => rfl
  | cons e es ih =>
    obtain ⟨he, hes⟩ := List.forall_mem_cons.mp horder
    rw [List.foldl_cons, replaceAll_cons_of_ne he, replaceAll_nil]
    exact ih hes

/-! ### Decoding -/

/-- Every ampersand has a semicolon behind it. -/
def Closed (s : List Char) : Prop :=
  ∀ t ∈ s.tails, t.head? = some '&' → ';' ∈ t

instance (s : List Char) : Decidable (Closed s) := by
  unfold Closed
  infer_instance

/-- Behind a text whose ampersands have their semicolons an entity is replaced afresh. -/
theorem replaceAll_append_of_closed {e : List Char × Char} (he : e ∈ entities) (ha : Closed a)
    (b : List Char) :
    replaceAll e.1 [e.2] (a ++ b) = replaceAll e.1 [e.2] a ++ replaceAll e.1 [e.2] b := by
  have hstart : ∀ e ∈ entities, e.1.head? = some '&' := by decide
  have hend : ∀ e ∈ entities, ';' ∉ e.1.dropLast := by decide
  apply replaceAll_append_of_apart (entity_ne_nil e he)
  intro l r hold hl hr hla _
  -- The part in `a` would begin with the ampersand and lack the semicolon.
  have hhead : l.head? = some '&' := by
    have := hstart e he
    rwa [hold, List.head?_append_of_ne_nil l hl] at this
  have hmem : ';' ∈ l := ha l ((List.mem_tails l a).mpr hla) hhead
  apply hend e he
  rw [hold, List.dropLast_append_of_ne_nil hr]
  exact List.mem_append_left _ hmem

/-- Every ampersand has its semicolon, and so it is after each of the replacements but the last. -/
def staysClosed : List (List Char × Char) → List Char → Bool
  | [], _ => true
  | (entity, c) :: es, s => decide (Closed s) && staysClosed es (replaceAll entity [c] s)

/-- Words whose ampersands have their semicolons all along are decoded on their own. -/
theorem foldl_flatMap_of_staysClosed {es : List (List Char × Char)} (hes : es ⊆ entities)
    {w : Char → List Char} (h : ∀ c ∈ p, staysClosed es (w c) = true) :
    es.foldl (fun s e => replaceAll e.1 [e.2] s) (p.flatMap w) =
      p.flatMap fun c => es.foldl (fun s e => replaceAll e.1 [e.2] s) (w c) := by
  induction es generalizing w with
  | nil => rfl
  | cons e es ih =>
    obtain ⟨he, hes⟩ := List.cons_subset.mp hes
    have hsplit : ∀ c ∈ p, Closed (w c) ∧ staysClosed es (replaceAll e.1 [e.2] (w c)) = true := by
      intro c hc
      simpa [staysClosed] using h c hc
    have hstep : replaceAll e.1 [e.2] (p.flatMap w) =
        p.flatMap fun c => replaceAll e.1 [e.2] (w c) := by
      clear h ih
      induction p with
      | nil => exact replaceAll_nil _ _
      | cons c p ihp =>
        obtain ⟨hc, hp⟩ := List.forall_mem_cons.mp hsplit
        rw [List.flatMap_cons, replaceAll_append_of_closed he hc.1, ihp hp, List.flatMap_cons]
    rw [List.foldl_cons, hstep, ih hes fun c hc => (hsplit c hc).2]
    rfl

theorem decodeEntities_eq_foldl (s : List Char) :
    decodeEntities s = (entities ++ entities).foldl (fun s e => replaceAll e.1 [e.2] s) s := by
  rw [List.foldl_append]
  rfl

/-- No entity is replaced in a text without ampersands. -/
theorem replaceAll_of_no_ampersand {e : List Char × Char} (he : e ∈ entities) (hs : '&' ∉ s) :
    replaceAll e.1 [e.2] s = s := by
  have hmem : ∀ e ∈ entities, '&' ∈ e.1 := by decide
  exact replaceAll_of_absent fun hi => hs (hi.subset (hmem e he))

theorem staysClosed_of_no_ampersand {es : List (List Char × Char)} (hes : es ⊆ entities)
    (hs : '&' ∉ s) : staysClosed es s = true := by
  have hclosed : Closed s := by
    intro t ht hhead
    obtain ⟨r, rfl⟩ := List.head?_eq_some_iff.mp hhead
    exact absurd (((List.mem_tails _ s).mp ht).subset List.mem_cons_self) hs
  induction es with
  | nil => rfl
  | cons e es ih =>
    obtain ⟨he, hes⟩ := List.cons_subset.mp hes
    rw [staysClosed, replaceAll_of_no_ampersand he hs, ih hes, decide_eq_true hclosed]
    rfl

/-- One character is recovered, and on the way every ampersand has its semicolon. -/
theorem decodeEntities_iterate_singleton {n : ℕ} (hn : n ≤ 2) {c : Char} (hc : c ≠ '&') :
    staysClosed (entities ++ entities) (encodeEntities^[n] [c]) = true ∧
      decodeEntities (encodeEntities^[n] [c]) = [c] := by
  by_cases hplain : ∀ e ∈ entities, e.2 ≠ c
  · have hkept : encodeEntities^[n] [c] = [c] :=
      Function.iterate_fixed (encodeEntities_singleton hplain) n
    have hampersand : '&' ∉ [c] := by simpa using hc.symm
    have hsub : entities ++ entities ⊆ entities := by simp
    rw [hkept]
    refine ⟨staysClosed_of_no_ampersand hsub hampersand, decodeEntities_eq_self_iff.mpr ?_⟩
    have hmem : ∀ e ∈ entities, '&' ∈ e.1 := by decide
    exact fun e he hi => hampersand (hi.subset (hmem e he))
  · have hspecial : c = '<' ∨ c = '>' ∨ c = '&' ∨ c = '"' ∨ c = '\'' := by
      obtain ⟨e, he, rfl⟩ : ∃ e ∈ entities, e.2 = c := by simpa using hplain
      have htable : ∀ e ∈ entities, e.2 = '<' ∨ e.2 = '>' ∨ e.2 = '&' ∨ e.2 = '"' ∨ e.2 = '\'' := by
        decide
      exact htable e he
    rcases hspecial with rfl | rfl | rfl | rfl | rfl
    · interval_cases n <;> exact ⟨by decide +kernel, by decide +kernel⟩
    · interval_cases n <;> exact ⟨by decide +kernel, by decide +kernel⟩
    · exact absurd rfl hc
    · interval_cases n <;> exact ⟨by decide +kernel, by decide +kernel⟩
    · interval_cases n <;> exact ⟨by decide +kernel, by decide +kernel⟩

/-- What was encoded up to two times is recovered, if no ampersand stood there. -/
theorem decodeEntities_iterate {n : ℕ} (hn : n ≤ 2) (h : '&' ∉ p) :
    decodeEntities (encodeEntities^[n] p) = p := by
  have hchar : ∀ c ∈ p, c ≠ '&' := fun c hc heq => h (heq ▸ hc)
  have hclosed : ∀ c ∈ p, staysClosed (entities ++ entities) (encodeEntities^[n] [c]) = true :=
    fun c hc => (decodeEntities_iterate_singleton hn (hchar c hc)).1
  have hdecoded : ∀ c ∈ p, decodeEntities (encodeEntities^[n] [c]) = [c] :=
    fun c hc => (decodeEntities_iterate_singleton hn (hchar c hc)).2
  have hsub : entities ++ entities ⊆ entities := by simp
  calc decodeEntities (encodeEntities^[n] p)
      = decodeEntities (p.flatMap fun c => encodeEntities^[n] [c]) := by rw [← iterate_encodeEntities]
    _ = p.flatMap fun c => decodeEntities (encodeEntities^[n] [c]) := by
      simp only [decodeEntities_eq_foldl, foldl_flatMap_of_staysClosed hsub hclosed]
    _ = p.flatMap fun c => [c] := List.flatMap_congr hdecoded
    _ = p := List.flatMap_singleton' p

/-- **Decoding recovers what was typed into a form**, and into a form inside a form, as long as no
ampersand was typed. -/
theorem decodeEntities_encodeEntities (h : '&' ∉ p) :
    decodeEntities p = p ∧ decodeEntities (encodeEntities p) = p ∧
      decodeEntities (encodeEntities (encodeEntities p)) = p :=
  ⟨decodeEntities_iterate (n := 0) (by decide) h, decodeEntities_iterate (n := 1) (by decide) h,
    decodeEntities_iterate (n := 2) (by decide) h⟩

/-- Characters that have an entity, beside letters that end one. -/
theorem decodeEntities_encodeEntities_neighbours :
    '&' ∉ "'lt;<amp;\"quot;>".toList ∧
      encodeEntities (encodeEntities "'lt;<amp;\"quot;>".toList) =
        "&amp;apos;lt;&amp;lt;amp;&amp;quot;quot;&amp;gt;".toList ∧
      decodeEntities (encodeEntities (encodeEntities "'lt;<amp;\"quot;>".toList)) =
        "'lt;<amp;\"quot;>".toList := by
  have htyped : '&' ∉ "'lt;<amp;\"quot;>".toList := by decide
  exact ⟨htyped, by decide +kernel, (decodeEntities_encodeEntities htyped).2.2⟩

end ExperimentKpi.Query
