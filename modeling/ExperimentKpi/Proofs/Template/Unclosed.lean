/-
# Delimiters that are never closed

A text falls into pieces unless a delimiter is opened in it that is never closed. What is opened is found
from the left: `Reaches` says that complete pieces tile a text up to an opening delimiter. Then the pieces
before it are found, and the search goes on at the delimiter (`Reaches.piecesFrom_eq`). So the search fails
exactly at the delimiters that are reached and have no closing one behind them
(`piecesFrom_error_iff`), and it names the byte at which the delimiter starts.

Key definitions: `Reaches`.
Key theorems: `closeAt?_eq_none_iff`, `Reaches.piecesFrom_eq`, `piecesFrom_error_iff`.
-/
import ExperimentKpi.Proofs.Sequence
import ExperimentKpi.Proofs.Template.Tiling

namespace ExperimentKpi.Template

/-- Pieces tile the text up to an opening delimiter. The last plain stretch among them does not open
anything with the brace of the delimiter. -/
structure Reaches (s : List Char) (before : List Piece) (kind : Delimiter) (rest : List Char) :
    Prop where
  source : s = piecesSource before ++ '{' :: kind.opening :: rest
  tiling : IsTiling (before ++ [.delimited kind []])

/-! ### Closing delimiters -/

/-- There is nothing to close with exactly if the closing delimiter does not occur. -/
theorem closeAt?_eq_none_iff {c : Char} {s : List Char} :
    closeAt? c s = none ↔ ¬ [c, '}'] <:+: s := by
  fun_induction closeAt? c s with
  | case1 a b r h =>
    obtain ⟨rfl, rfl⟩ := h
    have hinfix : [a, '}'] <:+: a :: '}' :: r := (List.prefix_append [a, '}'] r).isInfix
    exact iff_of_false (Option.some_ne_none _) (not_not_intro hinfix)
  | case2 a b r h ih =>
    have hhere : ¬ [c, '}'] <+: a :: b :: r := by
      rw [List.cons_prefix_cons, List.cons_prefix_cons]
      rintro ⟨rfl, rfl, -⟩
      exact h ⟨rfl, rfl⟩
    have hcons : [c, '}'] <:+: a :: b :: r ↔ [c, '}'] <+: a :: b :: r ∨ [c, '}'] <:+: b :: r :=
      List.infix_cons_iff
    rw [Option.map_eq_none_iff, ih, hcons, or_iff_right hhere]
  | case3 s h =>
    refine iff_of_true rfl fun hinfix => ?_
    have hlength := hinfix.length_le
    cases s with
    | nil => simp at hlength
    | cons a s =>
      cases s with
      | nil => simp at hlength
      | cons b r => exact h a b r rfl

theorem piecesFrom_of_unclosed {offset : Nat} {kind : Delimiter} {rest : List Char}
    (h : closeAt? kind.closing rest = none) :
    piecesFrom offset ('{' :: kind.opening :: rest) =
      .error ⟨offset, .unclosedDelimiter (String.ofList [kind.closing, '}'])⟩ := by
  have hopen : opened? ('{' :: kind.opening :: rest) = some (kind, rest) := by cases kind <;> rfl
  rw [piecesFrom.eq_def]
  simp only
  split
  · rename_i kind' body ho
    rw [hopen] at ho
    cases ho
    split
    · rename_i inner rest' hc
      rw [h] at hc
      cases hc
    · rfl
  · rename_i ho
    rw [hopen] at ho
    cases ho

/-! ### What is reached -/

/-- Behind pieces the text goes on in the same way if a delimiter follows, whatever is in it. -/
theorem take_one_reached (ps : List Piece) (kind : Delimiter) (rest : List Char) :
    (piecesSource ps ++ '{' :: kind.opening :: rest).take 1 =
      (piecesSource (ps ++ [.delimited kind []])).take 1 := by
  rw [piecesSource_append]
  cases piecesSource ps <;> simp [Piece.source]

namespace Reaches

variable {s rest : List Char} {before : List Piece} {kind : Delimiter}

/-- Where no plain stretch comes first, something is opened. -/
theorem isSome_opened? (h : Reaches s before kind rest)
    (hhead : ∀ p ∈ before.head?, p.IsDelimited) : (opened? s).isSome = true := by
  obtain ⟨rfl, -⟩ := h
  cases before with
  | nil => cases kind <;> rfl
  | cons p ps =>
    cases p with
    | plain content => exact absurd (hhead _ rfl) id
    | delimited kind' inner =>
      rw [piecesSource_cons, List.append_assoc, opened?_delimited]
      rfl

/-- A plain stretch opens nothing. -/
theorem opened?_plain {content : List Char}
    (h : Reaches s (.plain content :: before) kind rest) : opened? s = none := by
  obtain ⟨rfl, htiling⟩ := h
  rw [List.cons_append] at htiling
  cases htiling with
  | plain hne hunopened =>
    obtain ⟨a, t, rfl⟩ := List.exists_cons_of_ne_nil hne
    rw [← take_one_reached before kind rest] at hunopened
    have hnone := opened?_stretch hunopened
    rwa [piecesSource_cons, Piece.source, List.append_assoc, List.cons_append]

/-- A delimited piece in front. -/
theorem cons_delimited {kind' : Delimiter} {inner : List Char} (h : Reaches s before kind rest)
    (hunclosed : Unclosed kind' inner) :
    Reaches ((Piece.delimited kind' inner).source ++ s) (.delimited kind' inner :: before) kind
      rest where
  source := by rw [piecesSource_cons, List.append_assoc, ← h.source]
  tiling := .delimited hunclosed h.tiling

/-- A plain stretch in front, where something is opened behind it. -/
theorem cons_plain {content : List Char} (h : Reaches s before kind rest) (hne : content ≠ [])
    (hunopened : Unopened (content ++ s.take 1)) (hopen : (opened? s).isSome = true) :
    Reaches (content ++ s) (.plain content :: before) kind rest where
  source := by
    rw [piecesSource_cons, List.append_assoc, ← h.source]
    rfl
  tiling := by
    refine .plain hne ?_ ?_ h.tiling
    · rw [h.source, take_one_reached before kind rest] at hunopened
      exact hunopened
    · cases before with
      | nil => exact isDelimited_head_delimited _ _ _
      | cons p ps =>
        cases p with
        | plain content => simp [h.opened?_plain] at hopen
        | delimited => exact isDelimited_head_delimited _ _ _

/-- What comes behind the first piece is reached as well. -/
theorem tail {p : Piece} (h : Reaches s (p :: before) kind rest) :
    Reaches (piecesSource before ++ '{' :: kind.opening :: rest) before kind rest where
  source := rfl
  tiling := by
    cases h.tiling with
    | plain _ _ _ htail => exact htail
    | delimited _ htail => exact htail

/-- **The pieces up to a delimiter that is reached are found.** -/
theorem piecesFrom_eq (h : Reaches s before kind rest) (offset : Nat) :
    piecesFrom offset s =
      (piecesFrom (offset + byteLength (piecesSource before)) ('{' :: kind.opening :: rest)).map
        (located offset before ++ ·) := by
  induction before generalizing s offset with
  | nil =>
    rw [h.source]
    exact (congrFun Except.map_id _).symm
  | cons p ps ih =>
    have hrest := ih h.tail (offset + byteLength p.source)
    have hsource := h.source
    have htiling := h.tiling
    rw [piecesSource_cons, List.append_assoc] at hsource
    rw [piecesSource_cons, byteLength_append, ← Nat.add_assoc, hsource]
    rw [List.cons_append] at htiling
    cases htiling with
    | @plain content _ hne hunopened hnext htail =>
      obtain ⟨a, t, rfl⟩ := List.exists_cons_of_ne_nil hne
      rw [← take_one_reached ps kind rest] at hunopened
      have hopen : (opened? (piecesSource ps ++ '{' :: kind.opening :: rest)).isSome = true := by
        refine h.tail.isSome_opened? fun q hq => hnext q ?_
        rw [List.head?_append, Option.mem_def.mp hq]
        rfl
      have hrun := plainRun_stretch (List.IsChain.tail hunopened) (.inr hopen)
      rw [Piece.source] at hrest ⊢
      rw [List.cons_append, piecesFrom_of_plain (opened?_stretch hunopened), hrun, hrest,
        map_map_except]
      rfl
    | @delimited kind' inner _ hunclosed htail =>
      have hclose := closeAt?_inner hunclosed (piecesSource ps ++ '{' :: kind.opening :: rest)
      rw [piecesFrom_of_opened (opened?_delimited kind' inner _) hclose, hrest, map_map_except]
      rfl

end Reaches

/-- **The search for pieces fails exactly at a delimiter that is reached and never closed**, and names
the byte at which it starts. -/
theorem piecesFrom_error_iff {offset : Nat} {s : List Char} {e : ParseError} :
    piecesFrom offset s = .error e ↔
      ∃ before kind rest, Reaches s before kind rest ∧ ¬ [kind.closing, '}'] <:+: rest ∧
        e = ⟨offset + byteLength (piecesSource before),
          .unclosedDelimiter (String.ofList [kind.closing, '}'])⟩ := by
  constructor
  · intro h
    fun_induction piecesFrom offset s with
    | case1 => cases h
    | case2 offset c r kind body hopen inner rest hclose piece =>
      rename_i ih
      obtain ⟨before, kind', rest', hreach, hnone, rfl⟩ := ih (map_error_iff.mp h)
      have hsource : c :: r = piece.source ++ rest := by
        rw [opened?_append hopen, closeAt?_append hclose]
        simp [piece, Piece.source]
      refine ⟨piece :: before, kind', rest', ?_, hnone, ?_⟩
      · rw [hsource]
        exact hreach.cons_delimited (unclosed_closeAt? hclose)
      · rw [piecesSource_cons, byteLength_append, Nat.add_assoc]
    | case3 offset c r kind body hopen hclose =>
      cases h
      have htiling : IsTiling [.delimited kind []] := .delimited (.singleton _) .nil
      exact ⟨[], kind, body, ⟨opened?_append hopen, htiling⟩, closeAt?_eq_none_iff.mp hclose, rfl⟩
    | case4 offset c r hnone content =>
      rename_i ih
      have hrest := map_error_iff.mp h
      obtain ⟨before, kind', rest', hreach, hclose, rfl⟩ := ih hrest
      have hopen : (opened? (plainRun r).2).isSome = true := by
        refine (opened?_plainRun r).resolve_left fun hnil => ?_
        rw [hnil, piecesFrom.eq_def] at hrest
        cases hrest
      have hunopened : Unopened (content ++ (plainRun r).2.take 1) := by
        have hall := unopened_plainRun (c :: r)
        rwa [plainRun_of_plain hnone] at hall
      have hsource : c :: r = content ++ (plainRun r).2 := congrArg (c :: ·) (plainRun_append r).symm
      refine ⟨.plain content :: before, kind', rest', ?_, hclose, ?_⟩
      · rw [hsource]
        exact hreach.cons_plain (List.cons_ne_nil _ _) hunopened hopen
      · rw [piecesSource_cons, byteLength_append, Nat.add_assoc]
        rfl
  · rintro ⟨before, kind, rest, hreach, hnone, rfl⟩
    rw [hreach.piecesFrom_eq, piecesFrom_of_unclosed (closeAt?_eq_none_iff.mpr hnone)]
    rfl

end ExperimentKpi.Template
