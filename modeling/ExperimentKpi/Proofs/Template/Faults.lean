/-
# Where templates are refused

A template is refused at the first thing that is wrong with it, and the byte offset of the refusal is
where the thing at fault starts: a delimiter that is never closed; an output or a tag whose content is
wrong where it stands; or, where nothing else is wrong, the innermost block that is left open, with the
offset of the tag that opened it, whatever has come behind it. `Fault` says so over the pieces and the
grammar of blocks, and a text is refused exactly at its fault (`parse_error_iff`).

So every refusal points at an opening delimiter in the text (`Fault.starts`).

Key definitions: `Wrong`, `Fault`.
Key theorems: `Builder.tag_error_iff`, `Builder.readTokens_error_iff`, `parse_error_iff`,
`Fault.starts`, `parse_refusal`.
-/
import ExperimentKpi.Proofs.Template.OpenBlocks
import ExperimentKpi.Proofs.Template.Scan

namespace ExperimentKpi.Template

open Text (slice?)

/-! ### Faults -/

/-- The places at which a role continues or closes the block. -/
def Role.places : Role → List Place
  | branchStart | otherwiseStart => [.branch]
  | r => r.closes

/-- The cause of a refusal that leaves a block open. -/
def Place.unclosed : Place → Cause
  | loop => .unclosedLoop
  | branch | otherwise => .unclosedChoice

/-- What is wrong with a token where the given blocks are open. -/
inductive Wrong (stack : List (Place × Nat)) : Token → Cause → Prop where
  | output {offset : Nat} {content : List Char} {cause : Cause}
      (unreadable : Output.ofText content = .error cause) :
      Wrong stack (.output offset content) cause
  | tooDeep {t : Token} (start : t.role = .loopStart ∨ t.role = .choiceStart)
      (full : maxNesting ≤ stack.length) : Wrong stack t .tooDeep
  | loop {t : Token} {cause : Cause} (start : t.role = .loopStart)
      (room : stack.length < maxNesting) (unreadable : loopHeader t.header = .error cause) :
      Wrong stack t cause
  | choice {t : Token} {cause : Cause} (start : t.role = .choiceStart)
      (room : stack.length < maxNesting) (unreadable : Cond.ofText t.header = .error cause) :
      Wrong stack t cause
  | branch {t : Token} {cause : Cause} (start : t.role = .branchStart)
      (place : stack.head?.map Prod.fst = some .branch)
      (unreadable : Cond.ofText t.header = .error cause) : Wrong stack t cause
  | misplaced {offset : Nat} {content : List Char}
      (start : ∀ place : Place, (Token.tag offset content).role ≠ place.start)
      (place : ∀ block ∈ stack.head?, block.1 ∉ (Token.tag offset content).role.places) :
      Wrong stack (.tag offset content) (.unexpectedTag (String.ofList (firstWord content)))

/-- The token of a delimited piece; a comment is none. -/
def Delimiter.token? (kind : Delimiter) (offset : Nat) (content : List Char) : Option Token :=
  match kind with
  | output => some (.output offset content)
  | tag => some (.tag offset content)
  | comment => none

/-- What is wrong with a text, and where. -/
inductive Fault (s : List Char) : ParseError → Prop where
  | delimiter {before : List Piece} {kind : Delimiter} {rest : List Char}
      (reached : Reaches s before kind rest) (unclosed : ¬ [kind.closing, '}'] <:+: rest) :
      Fault s ⟨byteLength (piecesSource before),
        .unclosedDelimiter (String.ofList [kind.closing, '}'])⟩
  | token {ps : List (Nat × Piece)} {before after : List Token} {t : Token} {kind : Delimiter}
      {inner : List Char} {stack : List (Place × Nat)} {offset : Nat} {cause : Cause}
      (found : pieces s = .ok ps) (split : allTokens ps = before ++ t :: after)
      (piece : (offset, .delimited kind inner) ∈ ps)
      (isToken : kind.token? offset (Inner.ofText inner).content = some t)
      (readable : ∀ u ∈ before, u.IsReadable) (opens : Opens before stack)
      (wrong : Wrong stack t cause) : Fault s ⟨offset, cause⟩
  | block {ps : List (Nat × Piece)} {inner : List Char} {place : Place}
      {stack : List (Place × Nat)} {offset : Nat} (found : pieces s = .ok ps)
      (piece : (offset, .delimited .tag inner) ∈ ps)
      (start : (Token.tag offset (Inner.ofText inner).content).role = place.start)
      (readable : ∀ t ∈ allTokens ps, t.IsReadable)
      (opens : Opens (allTokens ps) ((place, offset) :: stack)) :
      Fault s ⟨offset, place.unclosed⟩

/-! ### What the builder refuses -/

namespace Role

variable {r : Role}

theorem loop_mem_places_iff : .loop ∈ r.places ↔ r = .loopEnd := by
  cases r <;> decide

theorem branch_mem_places_iff :
    .branch ∈ r.places ↔ r = .branchStart ∨ r = .otherwiseStart ∨ r = .choiceEnd := by
  cases r <;> decide

theorem otherwise_mem_places_iff : .otherwise ∈ r.places ↔ r = .choiceEnd := by
  cases r <;> decide

end Role

namespace Builder

variable {b b' : Builder} {offset : Nat} {content rest : List Char} {t : Token}
  {cause : Cause} {e : ParseError} {ts us : List Token}

theorem checkDepth_eq (b : Builder) :
    b.checkDepth = if b.openBlocks.length < maxNesting then .ok () else .error .tooDeep := by
  rw [checkDepth, openBlocks, List.length_map]
  by_cases hroom : b.stack.length < maxNesting
  · rw [if_pos hroom, if_neg (by omega)]
  · rw [if_neg hroom, if_pos (by omega)]

/-- What opens a block is refused if there is no room, or else if its header cannot be read. -/
theorem checkDepth_bind_error_iff {α : Type} {x : Except Cause α} {f : α → Builder} :
    (do b.checkDepth; let a ← x; return f a : Except Cause Builder) = .error cause ↔
      (maxNesting ≤ b.openBlocks.length ∧ cause = .tooDeep) ∨
        (b.openBlocks.length < maxNesting ∧ x = .error cause) := by
  rw [checkDepth_eq]
  by_cases hroom : b.openBlocks.length < maxNesting
  · have hfull : ¬ maxNesting ≤ b.openBlocks.length := by omega
    rw [if_pos hroom]
    cases x <;> simp [bind, Except.bind, pure, Except.pure, hroom, hfull]
  · have hfull : maxNesting ≤ b.openBlocks.length := by omega
    rw [if_neg hroom]
    simp [bind, Except.bind, hroom, hfull, eq_comm]

theorem openLoop_error_iff :
    b.openLoop offset rest = .error cause ↔
      (maxNesting ≤ b.openBlocks.length ∧ cause = .tooDeep) ∨
        (b.openBlocks.length < maxNesting ∧ loopHeader rest = .error cause) :=
  checkDepth_bind_error_iff

theorem openChoice_error_iff :
    b.openChoice offset rest = .error cause ↔
      (maxNesting ≤ b.openBlocks.length ∧ cause = .tooDeep) ∨
        (b.openBlocks.length < maxNesting ∧ Cond.ofText rest = .error cause) :=
  checkDepth_bind_error_iff

/-- What the builder refuses of a tag is wrong. -/
theorem wrong_of_tag (h : b.tag offset content = .error cause) :
    Wrong b.openBlocks (.tag offset content) cause := by
  obtain ⟨stack, nodes⟩ := b
  unfold tag at h
  rw [cutKeyword_eq] at h
  simp only at h
  split at h
  · cases h
  · exact .branch (role_of_firstWord ‹_›) rfl (map_error_iff.mp h)
  · cases h
  · cases h
  · cases h
  · obtain ⟨hfull, rfl⟩ | ⟨hroom, hheader⟩ := openLoop_error_iff.mp h
    · exact .tooDeep (.inl (role_of_firstWord ‹_›)) hfull
    · exact .loop (role_of_firstWord ‹_›) hroom hheader
  · obtain ⟨hfull, rfl⟩ | ⟨hroom, hcond⟩ := openChoice_error_iff.mp h
    · exact .tooDeep (.inr (role_of_firstWord ‹_›)) hfull
    · exact .choice (role_of_firstWord ‹_›) hroom hcond
  · -- The tag opens no block, and the innermost one does not take it.
    rename_i stack _ _ hfor hif hendfor helif helse hendif hendother
    cases h
    refine .misplaced ?_ ?_
    · rintro (_ | _ | _) hstart
      · exact hfor (firstWord_of_role (by decide) hstart)
      all_goals exact hif (firstWord_of_role (by decide) hstart)
    · rintro block hblock hplace
      cases stack with
      | nil => cases hblock
      | cons opened stack =>
        obtain rfl := Option.some.inj hblock
        cases opened with
        | loop =>
          have hend := Role.loop_mem_places_iff.mp hplace
          exact hendfor _ _ _ _ _ rfl (firstWord_of_role (by decide) hend)
        | branch =>
          obtain hnext | hother | hend := Role.branch_mem_places_iff.mp hplace
          · exact helif _ _ _ _ _ rfl (firstWord_of_role (by decide) hnext)
          · exact helse _ _ _ _ _ rfl (firstWord_of_role (by decide) hother)
          · exact hendif _ _ _ _ _ rfl (firstWord_of_role (by decide) hend)
        | otherwise =>
          have hend := Role.otherwise_mem_places_iff.mp hplace
          exact hendother _ _ _ _ rfl (firstWord_of_role (by decide) hend)

/-- What is wrong with a tag is refused. -/
theorem tag_of_wrong (h : Wrong b.openBlocks (.tag offset content) cause) :
    b.tag offset content = .error cause := by
  have hloop : (Token.tag offset content).role = .loopStart →
      b.tag offset content = b.openLoop offset (behindFirstWord content) := fun h =>
    tag_for (cutKeyword_of_role (by decide) h)
  have hchoice : (Token.tag offset content).role = .choiceStart →
      b.tag offset content = b.openChoice offset (behindFirstWord content) := fun h =>
    tag_if (cutKeyword_of_role (by decide) h)
  cases h with
  | tooDeep start full =>
    obtain hstart | hstart := start
    · rw [hloop hstart, openLoop_error_iff]
      exact .inl ⟨full, rfl⟩
    · rw [hchoice hstart, openChoice_error_iff]
      exact .inl ⟨full, rfl⟩
  | loop start room unreadable =>
    rw [hloop start, openLoop_error_iff]
    exact .inr ⟨room, unreadable⟩
  | choice start room unreadable =>
    rw [hchoice start, openChoice_error_iff]
    exact .inr ⟨room, unreadable⟩
  | branch start place unreadable =>
    obtain ⟨stack, nodes⟩ := b
    cases stack with
    | nil => cases place
    | cons opened stack =>
      cases opened with
      | branch =>
        rw [tag, cutKeyword_of_role (show "elif" ∈ tagKeywords by decide) start]
        exact map_error_iff.mpr unreadable
      | loop | otherwise => cases place
  | misplaced start place =>
    obtain ⟨stack, nodes⟩ := b
    unfold tag
    rw [cutKeyword_eq]
    simp only
    split
    · exact absurd (Role.loop_mem_places_iff.mpr (role_of_firstWord ‹_›)) (place _ rfl)
    · exact absurd (Role.branch_mem_places_iff.mpr (.inl (role_of_firstWord ‹_›))) (place _ rfl)
    · exact absurd (Role.branch_mem_places_iff.mpr (.inr (.inl (role_of_firstWord ‹_›))))
        (place _ rfl)
    · exact absurd (Role.branch_mem_places_iff.mpr (.inr (.inr (role_of_firstWord ‹_›))))
        (place _ rfl)
    · exact absurd (Role.otherwise_mem_places_iff.mpr (role_of_firstWord ‹_›)) (place _ rfl)
    · exact absurd (role_of_firstWord ‹_›) (start .loop)
    · exact absurd (role_of_firstWord ‹_›) (start .branch)
    · rfl

/-- **A tag is refused exactly if it is wrong where it stands.** -/
theorem tag_error_iff :
    b.tag offset content = .error cause ↔ Wrong b.openBlocks (.tag offset content) cause :=
  ⟨wrong_of_tag, tag_of_wrong⟩

/-- A token is refused, with the offset at which it starts, exactly if it is wrong where it stands. -/
theorem step_error_iff :
    b.step t = .error e ↔
      ∃ kind offset content cause, Delimiter.token? kind offset content = some t ∧
        Wrong b.openBlocks t cause ∧ e = ⟨offset, cause⟩ := by
  cases t with
  | text content =>
    refine iff_of_false nofun ?_
    rintro ⟨_ | _ | _, _, _, _, ⟨⟩, -, -⟩
  | output offset content =>
    rw [step, mapError_error_iff]
    constructor
    · rintro ⟨cause, h, rfl⟩
      exact ⟨.output, offset, content, cause, rfl, .output (map_error_iff.mp h), rfl⟩
    · rintro ⟨_ | _ | _, _, _, cause, ⟨⟩, hwrong, rfl⟩
      cases hwrong with
      | output unreadable => exact ⟨cause, map_error_iff.mpr unreadable, rfl⟩
      | tooDeep start => rcases start with h | h <;> cases h
      | loop start | choice start | branch start => cases start
  | tag offset content =>
    rw [step, mapError_error_iff]
    constructor
    · rintro ⟨cause, h, rfl⟩
      exact ⟨.tag, offset, content, cause, rfl, tag_error_iff.mp h, rfl⟩
    · rintro ⟨_ | _ | _, _, _, cause, ⟨⟩, hwrong, rfl⟩
      exact ⟨cause, tag_error_iff.mpr hwrong, rfl⟩

theorem readTokens_singleton_error_iff : b.readTokens [t] = .error e ↔ b.step t = .error e := by
  by_cases ht : t = .text []
  · subst ht
    exact iff_of_false nofun nofun
  · rw [readTokens, significant_cons ht, List.foldlM_cons, bind_error_iff, or_iff_left]
    rintro ⟨_, -, ⟨⟩⟩

/-- **Reading fails exactly at the first token that is refused.** -/
theorem readTokens_error_iff :
    b.readTokens ts = .error e ↔
      ∃ before t after b', ts = before ++ t :: after ∧ b.readTokens before = .ok b' ∧
        b'.step t = .error e := by
  constructor
  · intro h
    induction ts using List.reverseRecOn with
    | nil => cases h
    | append_singleton ts t ih =>
      rw [readTokens_append_eq, bind_error_iff] at h
      obtain hts | ⟨b', hts, ht⟩ := h
      · obtain ⟨before, u, after, b', rfl, hbefore, hu⟩ := ih hts
        refine ⟨before, u, after ++ [t], b', ?_, hbefore, hu⟩
        rw [List.append_assoc, List.cons_append]
      · exact ⟨ts, t, [], b', rfl, hts, readTokens_singleton_error_iff.mp ht⟩
  · rintro ⟨before, t, after, b', rfl, hbefore, ht⟩
    have hrest : b'.readTokens ([t] ++ after) = .error e := by
      rw [readTokens_append_eq, bind_of_error (readTokens_singleton_error_iff.mpr ht)]
    rw [readTokens_append_eq, bind_of_ok hbefore]
    exact hrest

/-- An open block is refused at its own tag. -/
theorem finish_error_iff :
    b.finish = .error e ↔
      ∃ place offset stack, b.openBlocks = (place, offset) :: stack ∧
        e = ⟨offset, place.unclosed⟩ := by
  obtain ⟨stack, nodes⟩ := b
  cases stack with
  | nil =>
    refine iff_of_false nofun ?_
    rintro ⟨_, _, _, ⟨⟩, -⟩
  | cons opened stack =>
    have hfinish : finish ⟨opened :: stack, nodes⟩ =
        .error ⟨opened.entry.2, opened.entry.1.unclosed⟩ := by cases opened <;> rfl
    rw [hfinish]
    constructor
    · rintro ⟨⟩
      exact ⟨_, _, _, rfl, rfl⟩
    · rintro ⟨place, offset, rest, hblocks, rfl⟩
      rw [(List.cons.inj hblocks).1]

end Builder

/-! ### Refused texts -/

/-- A token that is no text stands for a delimited piece and starts where that does. -/
theorem exists_piece {trimmed : Bool} {ps : List (Nat × Piece)} {t : Token} {kind : Delimiter}
    {offset : Nat} {content : List Char} (h : t ∈ allTokensAfter trimmed ps)
    (ht : kind.token? offset content = some t) :
    ∃ inner, (offset, .delimited kind inner) ∈ ps ∧ content = (Inner.ofText inner).content := by
  induction ps generalizing trimmed with
  | nil => cases h
  | cons p r ih =>
    have hrest : ∀ {trimmed}, t ∈ allTokensAfter trimmed r →
        ∃ inner, (offset, .delimited kind inner) ∈ p :: r ∧
          content = (Inner.ofText inner).content := by
      intro trimmed h
      obtain ⟨inner, hmem, hcontent⟩ := ih h
      exact ⟨inner, List.mem_cons_of_mem _ hmem, hcontent⟩
    obtain ⟨offset', text | ⟨kind', inner⟩⟩ := p
    · rw [allTokensAfter, List.mem_cons] at h
      obtain rfl | h := h
      · cases kind <;> cases ht
      · exact hrest h
    · cases kind' with
      | output | tag =>
        rw [allTokensAfter, List.mem_cons] at h
        obtain rfl | h := h
        · cases kind <;> cases ht
          exact ⟨inner, List.mem_cons_self, rfl⟩
        · exact hrest h
      | comment =>
        rw [allTokensAfter] at h
        exact hrest h

theorem parse_of_pieces_error {source : String} {e : ParseError}
    (h : pieces source.toList = .error e) : parse source = .error e := by
  rw [parse, tokens, h]
  rfl

/-- **A text is refused exactly at its fault.** -/
theorem parse_error_iff {source : String} {e : ParseError} :
    parse source = .error e ↔ Fault source.toList e := by
  constructor
  · intro h
    cases hps : pieces source.toList with
    | error e' =>
      rw [parse_of_pieces_error hps] at h
      cases h
      obtain ⟨before, kind, rest, hreach, hclose, rfl⟩ := piecesFrom_error_iff.mp hps
      rw [Nat.zero_add]
      exact .delimiter hreach hclose
    | ok ps =>
      rw [parse_of_pieces hps, bind_error_iff] at h
      obtain hread | ⟨b, hread, hfinish⟩ := h
      · obtain ⟨before, t, after, b, hsplit, hb, hstep⟩ := Builder.readTokens_error_iff.mp hread
        obtain ⟨kind, offset, content, cause, ht, hwrong, rfl⟩ := Builder.step_error_iff.mp hstep
        have hmem : t ∈ allTokens ps := by
          rw [hsplit]
          exact List.mem_append_right _ List.mem_cons_self
        obtain ⟨inner, hpiece, rfl⟩ := exists_piece hmem ht
        obtain ⟨hreadable, hopens⟩ := exists_readTokens_iff.mp ⟨b, hb, rfl⟩
        exact .token hps hsplit hpiece ht hreadable hopens hwrong
      · obtain ⟨place, offset, stack, hblocks, rfl⟩ := Builder.finish_error_iff.mp hfinish
        obtain ⟨hreadable, hopens⟩ := exists_readTokens_iff.mp ⟨b, hread, hblocks⟩
        obtain ⟨content, hmem, hstart⟩ := hopens.exists_start
        have htag : Delimiter.tag.token? offset content = some (.tag offset content) := rfl
        obtain ⟨inner, hpiece, rfl⟩ := exists_piece hmem htag
        exact .block hps hpiece hstart hreadable hopens
  · intro h
    cases h with
    | delimiter reached unclosed =>
      refine parse_of_pieces_error (piecesFrom_error_iff.mpr ?_)
      exact ⟨_, _, _, reached, unclosed, by rw [Nat.zero_add]⟩
    | token found split piece isToken readable opens wrong =>
      obtain ⟨b, hb, rfl⟩ := opens.reads readable
      have hstep := Builder.step_error_iff.mpr ⟨_, _, _, _, isToken, wrong, rfl⟩
      have hread := Builder.readTokens_error_iff.mpr ⟨_, _, _, b, split, hb, hstep⟩
      rw [parse_of_pieces found, bind_of_error hread]
    | block found piece start readable opens =>
      obtain ⟨b, hb, hblocks⟩ := opens.reads readable
      have hfinish := Builder.finish_error_iff.mpr ⟨_, _, _, hblocks, rfl⟩
      rw [parse_of_pieces found, bind_of_ok hb, hfinish]

/-- A fault starts with an opening delimiter. -/
theorem Fault.starts {s : List Char} {e : ParseError} (h : Fault s e) :
    ∃ before kind rest, s = before ++ '{' :: Delimiter.opening kind :: rest ∧
      e.offset = byteLength before := by
  have hpiece : ∀ {ps offset kind inner}, pieces s = .ok ps →
      (offset, Piece.delimited kind inner) ∈ ps →
      ∃ before kind rest, s = before ++ '{' :: Delimiter.opening kind :: rest ∧
        offset = byteLength before := by
    intro ps offset kind inner found hmem
    obtain ⟨qs, rfl, rfl, -⟩ := exists_isTiling found
    obtain ⟨before, after, rfl, rfl⟩ := mem_located_iff.mp hmem
    refine ⟨piecesSource before, kind, inner ++ [kind.closing, '}'] ++ piecesSource after, ?_,
      Nat.zero_add _⟩
    rw [piecesSource_append, piecesSource_cons]
    rfl
  cases h with
  | delimiter reached => exact ⟨_, _, _, reached.source, rfl⟩
  | token found _ piece | block found piece => exact hpiece found piece

/-- **Every refusal points at the fault**: at the byte where the delimiter starts that is never closed,
the output or tag whose content is wrong, or the tag of the block that is left open. There a character
starts in the text, and an opening delimiter stands there. -/
theorem parse_refusal (source : String) (e : ParseError) :
    (parse source = .error e ↔ Fault source.toList e) ∧
      (parse source = .error e →
        String.Pos.Raw.IsValid source ⟨e.offset⟩ ∧ e.offset < source.utf8ByteSize ∧
          ∃ kind : Delimiter,
            slice? source e.offset (e.offset + 2) = some (String.ofList ['{', kind.opening])) := by
  refine ⟨parse_error_iff, fun h => ?_⟩
  obtain ⟨before, kind, rest, hsource, hoffset⟩ := (parse_error_iff.mp h).starts
  have hslice : slice? source e.offset (e.offset + 2) =
      some (String.ofList ['{', kind.opening]) := by
    have hcut : slice? source (byteLength before) (byteLength (before ++ ['{', kind.opening])) =
        some (String.ofList ['{', kind.opening]) := slice?_eq (b := rest) (by rw [hsource]; simp)
    rwa [byteLength_append, byteLength_opening, ← hoffset] at hcut
  have hinside : e.offset < source.utf8ByteSize := by
    have hrest : byteLength ('{' :: kind.opening :: rest) = 2 + byteLength rest := by
      rw [← byteLength_opening kind, ← byteLength_append]
      rfl
    rw [utf8ByteSize_eq, hsource, byteLength_append, hrest, hoffset]
    omega
  exact ⟨(isValid_of_slice? hslice).1, hinside, kind, hslice⟩

/-- A choice that is left open. Behind its tag come a loop that is closed, a comment and a tag that
goes on with the choice. -/
def openChoice : String :=
  "é\x7b% if x %\x7d\x7b% for y in z %\x7d\x7b% endfor %\x7d\x7b# c #\x7d\x7b% else %\x7d"

theorem parse_refusal_openChoice :
    parse openChoice = .error ⟨2, .unclosedChoice⟩ ∧
      Fault openChoice.toList ⟨2, .unclosedChoice⟩ ∧
      String.Pos.Raw.IsValid openChoice ⟨2⟩ ∧ 2 < openChoice.utf8ByteSize ∧
      ∃ kind : Delimiter, slice? openChoice 2 4 = some (String.ofList ['{', kind.opening]) := by
  have hparse : parse openChoice = .error ⟨2, .unclosedChoice⟩ :=
    (parse_ofList _).trans (by with_unfolding_all rfl)
  have hrefusal := parse_refusal openChoice ⟨2, .unclosedChoice⟩
  exact ⟨hparse, hrefusal.1.mp hparse, hrefusal.2 hparse⟩

end ExperimentKpi.Template
