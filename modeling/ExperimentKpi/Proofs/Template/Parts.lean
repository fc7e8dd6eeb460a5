/-
# Parts of a template's text

A template's text as it is written: plain stretches, outputs and tags, with a blank inside every
delimiter. A plain stretch contains no opening delimiter and does not end with half of one, and what
stands between delimiters contains no closing delimiter, so the pieces that the text was written with
tile it (`isTiling_pieces`) and are found in it (`piecesFrom_source`); and as the blanks keep dashes away
from the delimiters, nothing is trimmed (`tokens_source`).

Key definitions: `Part`, `Part.source`, `Part.IsSound`, `locate`.
Key theorems: `isTiling_pieces`, `piecesFrom_source`, `tokens_source`.
-/
import ExperimentKpi.Proofs.Template.Spelling
import ExperimentKpi.Proofs.Template.Tiling

namespace ExperimentKpi.Template

/-- A part of a text: a plain stretch, or what stands between delimiters without the blanks there. -/
inductive Part where
  | text (content : List Char)
  | output (content : List Char)
  | tag (content : List Char)

namespace Part

/-- The piece that a part is. -/
def piece : Part → Piece
  | text content => .plain content
  | output content => .delimited .output (' ' :: content ++ [' '])
  | tag content => .delimited .tag (' ' :: content ++ [' '])

/-- The text of a part. -/
def source (p : Part) : List Char := p.piece.source

/-- The token of a part that starts at the byte `offset`. -/
def token (offset : Nat) : Part → Token
  | text content => .text content
  | output content => .output offset content
  | tag content => .tag offset content

/-- Whether the part is a plain stretch. -/
def isText : Part → Bool
  | text _ => true
  | _ => false

end Part

/-- A stretch that can stand alone: it is not empty, no two of its characters in a row open anything,
and it does not end with an opening brace. -/
def IsPlain (s : List Char) : Prop :=
  s ≠ [] ∧ s.IsChain (fun a b => opened? [a, b] = none) ∧ s.getLast? ≠ some '{'

instance (s : List Char) : Decidable (IsPlain s) :=
  inferInstanceAs (Decidable (s ≠ [] ∧ _ ∧ s.getLast? ≠ some '{'))

/-- The part can be found again: a plain stretch can stand alone, and what stands between delimiters
neither starts nor ends with a blank and has a closing brace only behind a backslash. -/
def Part.IsSound : Part → Prop
  | text content => IsPlain content
  | output content | tag content => Text.IsTight content ∧ Guarded content

/-- No two plain stretches stand next to each other. -/
def IsSeparated (ps : List Part) : Prop :=
  ps.IsChain fun p q => ¬ (p.isText = true ∧ q.isText = true)

/-- The text of parts in a row. -/
def partsSource (ps : List Part) : List Char :=
  ps.flatMap Part.source

/-- The tokens of parts of which the first starts at the byte `offset`. -/
def locate (offset : Nat) : List Part → List Token
  | [] => []
  | p :: ps => p.token offset :: locate (offset + byteLength p.source) ps

/-- The pieces of parts of which the first starts at the byte `offset`. -/
def locatePieces (offset : Nat) : List Part → List (Nat × Piece)
  | [] => []
  | p :: ps => (offset, p.piece) :: locatePieces (offset + byteLength p.source) ps

/-! ### Pieces -/

/-- A stretch that does not end with an opening brace opens nothing with the character behind it. -/
theorem unopened_append {s : List Char} (h : Unopened s) (hlast : s.getLast? ≠ some '{')
    (rest : List Char) : Unopened (s ++ rest.take 1) := by
  refine List.isChain_append.mpr ⟨h, ?_, fun a ha b _ => opened?_of_ne ?_⟩
  · cases rest with
    | nil => exact .nil
    | cons c r => exact .singleton c
  · rintro rfl
    exact hlast ha

theorem unclosed_blanks {kind : Delimiter} {content : List Char} (h : Guarded content) :
    Unclosed kind (' ' :: content ++ [' ']) := by
  have hclosing : kind.closing ≠ '\\' ∧ kind.closing ≠ ' ' := by
    cases kind <;> decide
  have hspace : Guarded [' '] := guarded_of_all (by decide)
  have hinner : Guarded (' ' :: content ++ [' ']) := (hspace.append h).append hspace
  refine List.isChain_append.mpr ⟨hinner.1.imp ?_, .singleton _, ?_⟩
  · rintro a b hab ⟨rfl, hb⟩
    exact hclosing.1 (hab hb)
  · rintro a ha b - ⟨rfl, -⟩
    rw [List.getLast?_append, List.getLast?_singleton, Option.some_or] at ha
    exact hclosing.2 (Option.some.inj ha).symm

theorem Inner.ofText_blanks {content : List Char} (h : Text.IsTight content) :
    Inner.ofText (' ' :: content ++ [' ']) = ⟨false, false, content⟩ := by
  have hlast : ((' ' :: content ++ [' ']).getLast? == some '-') = false := by
    rw [List.getLast?_append, List.getLast?_singleton, Option.some_or]
    decide
  have hbody : ofText (' ' :: content ++ [' ']) =
      ⟨false, (' ' :: content ++ [' ']).getLast? == some '-',
        Text.trim (if (' ' :: content ++ [' ']).getLast? == some '-' then
          (' ' :: content ++ [' ']).dropLast else ' ' :: content ++ [' '])⟩ := rfl
  rw [hbody, hlast, if_neg Bool.false_ne_true, Text.trim_blanks h]

/-! ### Texts -/

theorem partsSource_eq (ps : List Part) : partsSource ps = piecesSource (ps.map Part.piece) :=
  (List.flatMap_map Part.piece Piece.source ps).symm

theorem locatePieces_eq (offset : Nat) (ps : List Part) :
    locatePieces offset ps = located offset (ps.map Part.piece) := by
  induction ps generalizing offset with
  | nil => rfl
  | cons p ps ih =>
    rw [locatePieces, ih]
    rfl

/-- The pieces of parts tile the text. -/
theorem isTiling_pieces {ps : List Part} (hs : ∀ p ∈ ps, p.IsSound) (hsep : IsSeparated ps) :
    IsTiling (ps.map Part.piece) := by
  induction ps with
  | nil => exact .nil
  | cons p ps ih =>
    have hrest := ih (fun q hq => hs q (List.mem_cons_of_mem _ hq)) (List.IsChain.tail hsep)
    have hp := hs p List.mem_cons_self
    cases p with
    | text content =>
      refine .plain hp.1 (unopened_append hp.2.1 hp.2.2 _) ?_ hrest
      cases ps with
      | nil => exact nofun
      | cons q ps =>
        have hq : q.isText = false := by
          simpa [Part.isText] using (List.isChain_cons_cons.mp hsep).1
        rintro _ ⟨⟩
        cases q with
        | text => cases hq
        | output | tag => trivial
    | output content | tag content => exact .delimited (unclosed_blanks hp.2) hrest

/-- **A text falls into the pieces of its parts.** -/
theorem piecesFrom_source {ps : List Part} (hs : ∀ p ∈ ps, p.IsSound) (hsep : IsSeparated ps)
    (offset : Nat) : piecesFrom offset (partsSource ps) = .ok (locatePieces offset ps) := by
  rw [partsSource_eq, locatePieces_eq]
  exact (isTiling_pieces hs hsep).piecesFrom_located offset

theorem trimsBefore_locatePieces {ps : List Part} (hs : ∀ p ∈ ps, p.IsSound) (offset : Nat) :
    trimsBefore (locatePieces offset ps) = false := by
  cases ps with
  | nil => rfl
  | cons p ps =>
    have hp := hs p List.mem_cons_self
    cases p with
    | text => rfl
    | output | tag => simp only [locatePieces, Part.piece, trimsBefore, Inner.ofText_blanks hp.1]

theorem tokensAfter_locatePieces {ps : List Part} (hs : ∀ p ∈ ps, p.IsSound) (offset : Nat) :
    tokensAfter false (locatePieces offset ps) = locate offset ps := by
  induction ps generalizing offset with
  | nil => rfl
  | cons p ps ih =>
    have hp := hs p List.mem_cons_self
    have hps : ∀ q ∈ ps, q.IsSound := fun q hq => hs q (List.mem_cons_of_mem _ hq)
    have hrest := ih hps (offset + byteLength p.source)
    cases p with
    | text content =>
      have hne : content.isEmpty = false := by simpa using hp.1
      simp only [locatePieces, Part.piece, tokensAfter, trimsBefore_locatePieces hps, hne,
        Bool.false_eq_true, if_false, locate, Part.token]
      rw [← hrest]
    | output | tag =>
      simp only [locatePieces, Part.piece, tokensAfter, Inner.ofText_blanks hp.1, locate, Part.token]
      rw [← hrest]

/-- **The tokens of a text are those of its parts.** -/
theorem tokens_source {ps : List Part} (hs : ∀ p ∈ ps, p.IsSound) (hsep : IsSeparated ps) :
    tokens (partsSource ps) = .ok (locate 0 ps) := by
  rw [tokens, pieces, piecesFrom_source hs hsep, ← tokensAfter_locatePieces hs]
  rfl

end ExperimentKpi.Template
