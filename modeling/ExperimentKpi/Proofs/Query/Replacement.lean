/-
# Replacing every occurrence of a text

How `replaceAll` goes through a text: an occurrence at the head is replaced as a whole, any other
first character is copied (`replaceAll_append`, `replaceAll_cons`). A relation between neighbours
that the replacement satisfies with everything is kept (`isChain_replaceAll`), and so it is by the
decoding of entities (`isChain_decodeEntities`). A character that occurs in no replaced text separates
texts that are replaced in on their own (`replaceAll_separated`), as any two texts are at whose joint
no occurrence stands (`replaceAll_append_of_apart`).

Decoding keeps exactly the texts without entities (`decodeEntities_eq_self_iff`), and makes all others
shorter, also where only some characters are counted (`length_filter_decodeEntities_lt`).

Key theorems: `replaceAll_append`, `replaceAll_cons`, `replaceAll_separated`, `isChain_replaceAll`,
`isChain_decodeEntities`, `decodeEntities_eq_self_iff`.
-/
import Mathlib.Data.List.Chain
import ExperimentKpi.Query.Entity

namespace ExperimentKpi.Query

variable {old new s : List Char}

@[simp] theorem replaceAll_nil (old new : List Char) : replaceAll old new [] = [] := by
  rw [replaceAll]

/-- An occurrence at the head is replaced, and the replacement goes on behind it. -/
theorem replaceAll_append (h : old ≠ []) (s : List Char) :
    replaceAll old new (old ++ s) = new ++ replaceAll old new s := by
  obtain ⟨c, r, rfl⟩ := List.exists_cons_of_ne_nil h
  have hp : (c :: r).isPrefixOf (c :: (r ++ s)) = true :=
    List.isPrefixOf_iff_prefix.mpr ⟨s, rfl⟩
  rw [List.cons_append, replaceAll, if_pos hp]
  simp

/-- A character at which no occurrence starts is copied. -/
theorem replaceAll_cons {c : Char} (h : ¬ old <+: c :: s) :
    replaceAll old new (c :: s) = c :: replaceAll old new s := by
  rw [replaceAll, if_neg (by simpa using h)]

/-- A character that does not start `old` is copied. -/
theorem replaceAll_cons_of_ne {a c : Char} (h : a ≠ c) :
    replaceAll (a :: old) new (c :: s) = c :: replaceAll (a :: old) new s :=
  replaceAll_cons fun hp => h (List.cons_prefix_cons.mp hp).1

/-- The two ways in which a text can go on: with an occurrence, or with a character at which none
starts. -/
theorem replaceAll_induction {motive : List Char → Prop} (h : old ≠ []) (nil : motive [])
    (occurrence : ∀ s, motive s → motive (old ++ s))
    (copied : ∀ c s, ¬ old <+: c :: s → motive s → motive (c :: s)) (s : List Char) : motive s := by
  induction hn : s.length using Nat.strong_induction_on generalizing s with
  | _ n ih =>
    subst hn
    cases s with
    | nil => exact nil
    | cons c r =>
      by_cases hp : old <+: c :: r
      · obtain ⟨t, ht⟩ := hp
        have hlen : t.length < (c :: r).length := by
          rw [← ht, List.length_append]
          have := List.length_pos_iff.mpr h
          omega
        rw [← ht]
        exact occurrence t (ih _ hlen t rfl)
      · exact copied c r hp (ih _ (by simp) r rfl)

/-- A text keeps its first character if `old` and `new` have the same. -/
theorem head?_replaceAll {a : Char} {new : List Char} (s : List Char) :
    (replaceAll (a :: old) (a :: new) s).head? = s.head? := by
  induction s using replaceAll_induction (List.cons_ne_nil a old) with
  | nil => simp
  | occurrence s _ => rw [replaceAll_append (List.cons_ne_nil _ _)]; simp
  | copied c s h _ => rw [replaceAll_cons h]; simp

/-- Texts at whose joint no occurrence stands are replaced in on their own. -/
theorem replaceAll_append_of_apart (ho : old ≠ []) {a b : List Char}
    (h : ∀ l r, old = l ++ r → l ≠ [] → r ≠ [] → l <:+ a → ¬ r <+: b) :
    replaceAll old new (a ++ b) = replaceAll old new a ++ replaceAll old new b := by
  induction a using replaceAll_induction ho with
  | nil => rw [replaceAll_nil, List.nil_append, List.nil_append]
  | occurrence a ih =>
    have ha := ih fun l r hold hl hr hla => h l r hold hl hr (hla.trans (List.suffix_append old a))
    rw [List.append_assoc, replaceAll_append ho, replaceAll_append ho, ha, List.append_assoc]
  | copied c a hc ih =>
    have ha := ih fun l r hold hl hr hla => h l r hold hl hr (hla.trans (List.suffix_cons c a))
    have hp : ¬ old <+: c :: (a ++ b) := by
      intro hp
      rcases List.prefix_or_prefix_of_prefix hp (List.prefix_append (c :: a) b) with hle | ⟨r, hr⟩
      · exact hc hle
      · -- The occurrence begins with all of `c :: a` and ends with some of `b`.
        have hrb : r <+: b := by
          rw [← hr] at hp
          exact (List.prefix_append_right_inj (c :: a)).mp hp
        have hr0 : r ≠ [] := by
          rintro rfl
          rw [List.append_nil] at hr
          exact hc (hr ▸ List.prefix_refl _)
        exact h (c :: a) r hr.symm (List.cons_ne_nil c a) hr0 (List.suffix_refl _) hrb
    rw [List.cons_append, replaceAll_cons hp, replaceAll_cons hc, ha, List.cons_append]

/-- Texts with a character between them that does not occur in `old` are replaced in on their own. -/
theorem replaceAll_separated (ho : old ≠ []) {c : Char} (hc : c ∉ old) (a b : List Char) :
    replaceAll old new (a ++ c :: b) = replaceAll old new a ++ c :: replaceAll old new b := by
  have hapart : ∀ l r, old = l ++ r → l ≠ [] → r ≠ [] → l <:+ a → ¬ r <+: c :: b := by
    intro l r hold _ hr _ hrb
    obtain ⟨d, r, rfl⟩ := List.exists_cons_of_ne_nil hr
    obtain ⟨rfl, -⟩ := List.cons_prefix_cons.mp hrb
    exact hc (hold ▸ List.mem_append_right l List.mem_cons_self)
  have hhead : ¬ old <+: c :: b := by
    intro hp
    obtain ⟨d, r, rfl⟩ := List.exists_cons_of_ne_nil ho
    exact hc ((List.cons_prefix_cons.mp hp).1 ▸ List.mem_cons_self)
  rw [replaceAll_append_of_apart ho hapart, replaceAll_cons hhead]

/-- A text without the new character is what it was before the replacement. -/
theorem replaceAll_of_not_mem (ho : old ≠ []) {c : Char} (h : c ∉ replaceAll old [c] s) :
    replaceAll old [c] s = s := by
  induction s using replaceAll_induction ho with
  | nil => rw [replaceAll_nil]
  | occurrence s _ =>
    rw [replaceAll_append ho] at h
    exact absurd (List.mem_append_left _ (List.mem_singleton_self c)) h
  | copied d s hd ih =>
    rw [replaceAll_cons hd] at h ⊢
    rw [ih fun hc => h (List.mem_cons_of_mem d hc)]

/-- What ends the result without the new character has ended the text. -/
theorem suffix_of_suffix_replaceAll (ho : old ≠ []) {c : Char} {p : List Char} (hc : c ∉ p)
    (h : p <:+ replaceAll old [c] s) : p <:+ s := by
  induction s using replaceAll_induction ho with
  | nil => rwa [replaceAll_nil] at h
  | occurrence s ih =>
    rw [replaceAll_append ho, List.singleton_append, List.suffix_cons_iff] at h
    rcases h with rfl | h
    · exact absurd List.mem_cons_self hc
    · exact (ih h).trans (List.suffix_append old s)
  | copied d s hd ih =>
    rw [replaceAll_cons hd, List.suffix_cons_iff] at h
    rcases h with rfl | h
    · have hs := replaceAll_of_not_mem ho fun hmem => hc (List.mem_cons_of_mem d hmem)
      exact ⟨[], congrArg (List.cons d) hs⟩
    · exact (ih h).trans (List.suffix_cons d s)

/-- A text in which `old` does not occur is kept. -/
theorem replaceAll_of_absent (h : ¬ old <:+: s) : replaceAll old new s = s := by
  induction s with
  | nil => rw [replaceAll_nil]
  | cons c s ih =>
    rw [List.infix_cons_iff, not_or] at h
    rw [replaceAll_cons h.1, ih h.2]

/-- Putting one character in the place of several makes a text shorter if these occur in it. -/
theorem length_filter_replaceAll {p : Char → Bool} (hold : ∀ c ∈ old, p c = true)
    (hlen : 1 < old.length) (d : Char) (s : List Char) :
    ((replaceAll old [d] s).filter p).length ≤ (s.filter p).length ∧
      (old <:+: s → ((replaceAll old [d] s).filter p).length < (s.filter p).length) := by
  have ho : old ≠ [] := by
    rintro rfl
    exact absurd hlen (by decide)
  have hone : ([d].filter p).length ≤ 1 := List.length_filter_le p [d]
  have hall : (old.filter p).length = old.length := by rw [List.filter_eq_self.mpr hold]
  induction s using replaceAll_induction ho with
  | nil =>
    rw [replaceAll_nil]
    exact ⟨Nat.le_refl _, fun h => absurd (List.infix_nil.mp h) ho⟩
  | occurrence s ih =>
    rw [replaceAll_append ho, List.filter_append, List.filter_append, List.length_append,
      List.length_append]
    omega
  | copied c s h ih =>
    rw [replaceAll_cons h, List.filter_cons, List.filter_cons, List.infix_cons_iff]
    cases hc : p c with
    | false => exact ⟨ih.1, fun hi => ih.2 (hi.resolve_left h)⟩
    | true => exact ⟨Nat.succ_le_succ ih.1, fun hi => Nat.succ_lt_succ (ih.2 (hi.resolve_left h))⟩

/-- A relation between neighbours that holds of `c` and everything else is kept when `c` takes the
place of a text. -/
theorem isChain_replaceAll {R : Char → Char → Prop} {c : Char} (hl : ∀ a, R a c) (hr : ∀ a, R c a)
    (ho : old ≠ []) (hs : s.IsChain R) : (replaceAll old [c] s).IsChain R := by
  have hhead : ∀ t, (replaceAll old [c] t).head? = some c ∨
      (replaceAll old [c] t).head? = t.head? := by
    intro t
    induction t using replaceAll_induction ho with
    | nil => simp
    | occurrence t _ => rw [replaceAll_append ho]; simp
    | copied d t h _ => rw [replaceAll_cons h]; simp
  induction s using replaceAll_induction ho with
  | nil => simp
  | occurrence t ih =>
    rw [replaceAll_append ho]
    exact (ih (List.isChain_append.mp hs).2.1).cons fun a _ => hr a
  | copied d t h ih =>
    rw [replaceAll_cons h]
    refine (ih hs.tail).cons fun a ha => ?_
    rcases hhead t with hc | ht
    · rw [hc] at ha
      exact Option.some_inj.mp ha ▸ hl d
    · rw [ht] at ha
      exact (List.isChain_cons.mp hs).1 a ha

theorem entity_ne_nil : ∀ e ∈ entities, e.1 ≠ [] := by
  decide

/-- What every one of the replacements keeps is kept by decoding. -/
theorem decodeEntities_induction {motive : List Char → Prop}
    (step : ∀ e ∈ entities, ∀ s, motive s → motive (replaceAll e.1 [e.2] s)) (hs : motive s) :
    motive (decodeEntities s) := by
  have honce : ∀ s, motive s → motive (decodeOnce s) := by
    suffices ∀ es ⊆ entities, ∀ s, motive s →
        motive (es.foldl (fun s e => replaceAll e.1 [e.2] s) s) from
      this entities (List.Subset.refl _)
    intro es
    induction es with
    | nil => exact fun _ _ hs => hs
    | cons e es ih =>
      intro hsub s hs
      obtain ⟨he, hes⟩ := List.cons_subset.mp hsub
      exact ih hes _ (step e he s hs)
  exact honce _ (honce s hs)

/-- Decoding keeps what holds of neighbours if it holds of the five decoded characters and
everything else. -/
theorem isChain_decodeEntities {R : Char → Char → Prop}
    (h : ∀ e ∈ entities, ∀ a, R a e.2 ∧ R e.2 a) (hs : s.IsChain R) :
    (decodeEntities s).IsChain R :=
  decodeEntities_induction (fun e he _ hs =>
    isChain_replaceAll (fun a => (h e he a).1) (fun a => (h e he a).2) (entity_ne_nil e he) hs) hs

/-- What ends the decoded text without decoded characters has ended the text. -/
theorem suffix_of_suffix_decodeEntities {p : List Char} (hp : ∀ e ∈ entities, e.2 ∉ p)
    (h : p <:+ decodeEntities s) : p <:+ s :=
  decodeEntities_induction (motive := fun t => p <:+ t → p <:+ s)
    (fun e he _ ih ht => ih (suffix_of_suffix_replaceAll (entity_ne_nil e he) (hp e he) ht)) id h

@[simp] theorem decodeEntities_nil : decodeEntities [] = [] := by
  simp [decodeEntities, decodeOnce, entities]

/-- Texts with a character between them that is in no entity are decoded on their own. -/
theorem decodeEntities_separated {c : Char} (hc : ∀ e ∈ entities, c ∉ e.1) (a b : List Char) :
    decodeEntities (a ++ c :: b) = decodeEntities a ++ c :: decodeEntities b := by
  have honce (a b : List Char) : decodeOnce (a ++ c :: b) = decodeOnce a ++ c :: decodeOnce b := by
    suffices ∀ es ⊆ entities, ∀ a b : List Char,
        es.foldl (fun s e => replaceAll e.1 [e.2] s) (a ++ c :: b) =
          es.foldl (fun s e => replaceAll e.1 [e.2] s) a ++
            c :: es.foldl (fun s e => replaceAll e.1 [e.2] s) b from
      this entities (List.Subset.refl _) a b
    intro es
    induction es with
    | nil => exact fun _ _ _ => rfl
    | cons e es ih =>
      intro hsub a b
      obtain ⟨he, hes⟩ := List.cons_subset.mp hsub
      rw [List.foldl_cons, replaceAll_separated (entity_ne_nil e he) (hc e he), ih hes]
      rfl
  rw [decodeEntities, honce, honce]
  rfl

/-! ### Which texts decoding changes -/

/-- Decoding keeps a text without entities and makes any other shorter, also if only some characters
are counted, among them those that entities consist of. -/
theorem decodeOnce_cases {p : Char → Bool} (hp : ∀ e ∈ entities, ∀ c ∈ e.1, p c = true)
    (s : List Char) :
    ((∀ e ∈ entities, ¬ e.1 <:+: s) ∧ decodeOnce s = s) ∨
      ((¬ ∀ e ∈ entities, ¬ e.1 <:+: s) ∧
        ((decodeOnce s).filter p).length < (s.filter p).length) := by
  suffices ∀ es ⊆ entities, ∀ s : List Char,
      ((∀ e ∈ es, ¬ e.1 <:+: s) ∧ es.foldl (fun s e => replaceAll e.1 [e.2] s) s = s) ∨
        ((¬ ∀ e ∈ es, ¬ e.1 <:+: s) ∧
          ((es.foldl (fun s e => replaceAll e.1 [e.2] s) s).filter p).length <
            (s.filter p).length) from
    this entities (List.Subset.refl _) s
  intro es
  induction es with
  | nil => exact fun _ s => .inl ⟨nofun, rfl⟩
  | cons e es ih =>
    intro hsub s
    obtain ⟨he, hes⟩ := List.cons_subset.mp hsub
    have hlong : ∀ e ∈ entities, 1 < e.1.length := by decide
    obtain ⟨-, hlt⟩ := length_filter_replaceAll (hp e he) (hlong e he) e.2 s
    rw [List.foldl_cons, List.forall_mem_cons]
    by_cases hin : e.1 <:+: s
    · refine .inr ⟨fun h => h.1 hin, Nat.lt_of_le_of_lt ?_ (hlt hin)⟩
      rcases ih hes (replaceAll e.1 [e.2] s) with ⟨-, hsame⟩ | ⟨-, hless⟩
      · rw [hsame]
      · exact Nat.le_of_lt hless
    · rw [replaceAll_of_absent hin]
      rcases ih hes s with ⟨hnone, hsame⟩ | ⟨hsome, hless⟩
      · exact .inl ⟨⟨hin, hnone⟩, hsame⟩
      · exact .inr ⟨fun h => hsome h.2, hless⟩

theorem length_filter_decodeEntities_lt {p : Char → Bool}
    (hp : ∀ e ∈ entities, ∀ c ∈ e.1, p c = true) (h : ¬ ∀ e ∈ entities, ¬ e.1 <:+: s) :
    ((decodeEntities s).filter p).length < (s.filter p).length := by
  have honce : ((decodeOnce s).filter p).length < (s.filter p).length := by
    rcases decodeOnce_cases hp s with ⟨hnone, -⟩ | ⟨-, hless⟩
    · exact absurd hnone h
    · exact hless
  rcases decodeOnce_cases hp (decodeOnce s) with ⟨-, hsame⟩ | ⟨-, hless⟩
  · rw [decodeEntities, hsame]
    exact honce
  · exact hless.trans honce

/-- Decoding keeps a text exactly if no entity occurs in it. -/
theorem decodeEntities_eq_self_iff : decodeEntities s = s ↔ ∀ e ∈ entities, ¬ e.1 <:+: s := by
  have hp : ∀ e ∈ entities, ∀ c ∈ e.1, (fun _ => true) c = true := fun _ _ _ _ => rfl
  constructor
  · intro heq
    by_contra h
    have hlt := length_filter_decodeEntities_lt hp h
    rw [heq] at hlt
    exact Nat.lt_irrefl _ hlt
  · intro h
    have honce : decodeOnce s = s := by
      rcases decodeOnce_cases hp s with ⟨-, hsame⟩ | ⟨hsome, -⟩
      · exact hsame
      · exact absurd h hsome
    rw [decodeEntities, honce, honce]

end ExperimentKpi.Query
