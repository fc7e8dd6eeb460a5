/-
# The pieces of a text

Pieces tile a text if they are the text when they are put in a row with their delimiters, nothing is
opened in a plain stretch, also not by its last character with the one behind it, no two plain
stretches stand next to each other, and what stands between delimiters does not contain the closing
one. A text falls into pieces exactly if they tile it, each at the byte where the pieces before it end
(`piecesFrom_ok_iff`), so it does so in one way at most.

Key definitions: `piecesSource`, `located`, `IsTiling`.
Key theorems: `mem_located_iff`, `append_inj_of_byteLength`, `IsTiling.piecesFrom_located`,
`piecesFrom_ok_iff`, `IsTiling.replace`.
-/
import ExperimentKpi.Template.Expression
import ExperimentKpi.Template.Piece
import Mathlib.Data.List.Chain

namespace ExperimentKpi.Template

/-- The text of pieces in a row. -/
def piecesSource (ps : List Piece) : List Char :=
  ps.flatMap Piece.source

/-- Pieces of which the first starts at the byte `offset`. -/
def located (offset : Nat) : List Piece → List (Nat × Piece)
  | [] => []
  | p :: ps => (offset, p) :: located (offset + byteLength p.source) ps

/-- The piece stands between delimiters. -/
def Piece.IsDelimited : Piece → Prop
  | plain _ => False
  | delimited _ _ => True

/-- No two characters in a row open anything. -/
def Unopened (s : List Char) : Prop :=
  s.IsChain fun a b => opened? [a, b] = none

/-- The text does not contain the closing delimiter of a kind, nor does it with the first character of
that delimiter behind it. -/
def Unclosed (kind : Delimiter) (inner : List Char) : Prop :=
  (inner ++ [kind.closing]).IsChain fun a b => ¬ (a = kind.closing ∧ b = '}')

/-- The pieces are those of the text that they are in a row. -/
inductive IsTiling : List Piece → Prop where
  | nil : IsTiling []
  | plain {content : List Char} {ps : List Piece} (ne_nil : content ≠ [])
      (unopened : Unopened (content ++ (piecesSource ps).take 1))
      (next : ∀ p ∈ ps.head?, p.IsDelimited) (rest : IsTiling ps) :
      IsTiling (.plain content :: ps)
  | delimited {kind : Delimiter} {inner : List Char} {ps : List Piece}
      (unclosed : Unclosed kind inner) (rest : IsTiling ps) :
      IsTiling (.delimited kind inner :: ps)

@[simp]
theorem piecesSource_nil : piecesSource [] = [] := rfl

@[simp]
theorem piecesSource_cons (p : Piece) (ps : List Piece) :
    piecesSource (p :: ps) = p.source ++ piecesSource ps := rfl

theorem piecesSource_append (ps qs : List Piece) :
    piecesSource (ps ++ qs) = piecesSource ps ++ piecesSource qs :=
  List.flatMap_append

theorem byteLength_append (s t : List Char) : byteLength (s ++ t) = byteLength s + byteLength t := by
  induction s with
  | nil => simp [byteLength]
  | cons c s ih =>
    simp only [byteLength, List.cons_append, List.foldr_cons] at ih ⊢
    omega

theorem located_append (offset : Nat) (ps qs : List Piece) :
    located offset (ps ++ qs) =
      located offset ps ++ located (offset + byteLength (piecesSource ps)) qs := by
  induction ps generalizing offset with
  | nil => rfl
  | cons p ps ih =>
    rw [List.cons_append, located, located, ih, piecesSource_cons, byteLength_append, Nat.add_assoc]
    rfl

theorem map_snd_located (offset : Nat) (ps : List Piece) : (located offset ps).map Prod.snd = ps := by
  induction ps generalizing offset with
  | nil => rfl
  | cons p ps ih => rw [located, List.map_cons, ih]

/-- A piece starts where the text of the pieces before it ends. -/
theorem mem_located_iff {offset o : Nat} {p : Piece} {ps : List Piece} :
    (o, p) ∈ located offset ps ↔
      ∃ qs rs, ps = qs ++ p :: rs ∧ o = offset + byteLength (piecesSource qs) := by
  constructor
  · intro h
    induction ps generalizing offset with
    | nil => cases h
    | cons q ps ih =>
      rcases List.mem_cons.mp h with heq | hmem
      · obtain ⟨rfl, rfl⟩ := Prod.mk.inj heq
        exact ⟨[], ps, rfl, rfl⟩
      · obtain ⟨qs, rs, rfl, rfl⟩ := ih hmem
        refine ⟨q :: qs, rs, rfl, ?_⟩
        rw [piecesSource_cons, byteLength_append, Nat.add_assoc]
  · rintro ⟨qs, rs, rfl, rfl⟩
    rw [located_append]
    exact List.mem_append_right _ List.mem_cons_self

theorem byteLength_eq_zero_iff {s : List Char} : byteLength s = 0 ↔ s = [] := by
  cases s with
  | nil => exact ⟨fun _ => rfl, fun _ => rfl⟩
  | cons c s =>
    have hsize : 0 < c.utf8Size := c.utf8Size_pos
    have hcons : byteLength (c :: s) = c.utf8Size + byteLength s := rfl
    exact ⟨fun h => by omega, nofun⟩

/-- A byte offset cuts a text in one way. -/
theorem append_inj_of_byteLength {a b s t : List Char} (h : a ++ s = b ++ t)
    (hlen : byteLength a = byteLength b) : a = b ∧ s = t := by
  rcases List.append_eq_append_iff.mp h with ⟨m, rfl, rfl⟩ | ⟨m, rfl, rfl⟩
  · rw [byteLength_append] at hlen
    obtain rfl := byteLength_eq_zero_iff.mp (show byteLength m = 0 by omega)
    exact ⟨(List.append_nil a).symm, rfl⟩
  · rw [byteLength_append] at hlen
    obtain rfl := byteLength_eq_zero_iff.mp (show byteLength m = 0 by omega)
    exact ⟨List.append_nil b, rfl⟩

/-! ### Plain stretches -/

/-- Nothing is opened by a character that does not open anything with the next one. -/
theorem opened?_cons {a b : Char} {s : List Char} (h : opened? [a, b] = none) :
    opened? (a :: b :: s) = none := by
  unfold opened? at h ⊢
  split at h
  · rename_i heq
    cases heq
    simpa using h
  · rename_i hne
    split
    · rename_i heq
      cases heq
      exact absurd rfl (hne _ _)
    · rfl

theorem opened?_of_ne {a : Char} {s : List Char} (h : a ≠ '{') : opened? (a :: s) = none := by
  unfold opened?
  split
  · rename_i heq
    exact absurd (List.cons.inj heq).1 h
  · rfl

theorem opened?_append_right {s body : List Char} {kind : Delimiter} (h : opened? s = some (kind, body))
    (t : List Char) : opened? (s ++ t) = some (kind, body ++ t) := by
  obtain rfl := opened?_append h
  cases kind <;> rfl

/-- A stretch in which nothing is opened, also not at its end, opens nothing at its head. -/
theorem opened?_stretch {a : Char} {s rest : List Char} (h : Unopened (a :: s ++ rest.take 1)) :
    opened? (a :: (s ++ rest)) = none := by
  have hpair : ∀ {t : List Char}, Unopened (a :: t.take 1) → opened? (a :: t) = none := by
    intro t ht
    cases t with
    | nil => unfold opened?; split <;> simp_all
    | cons b t => exact opened?_cons (List.isChain_cons_cons.mp ht).1
  cases s with
  | nil => exact hpair h
  | cons b s => exact hpair (.cons_cons (List.isChain_cons_cons.mp h).1 (.singleton b))

/-- Where nothing is opened, the first two characters open nothing. -/
theorem opened?_pair {a b : Char} {s : List Char} (h : opened? (a :: b :: s) = none) :
    opened? [a, b] = none := by
  by_contra hpair
  obtain ⟨opening, hopen⟩ := Option.ne_none_iff_exists'.mp hpair
  have hlong := opened?_append_right hopen s
  rw [List.cons_append, List.singleton_append, h] at hlong
  cases hlong

/-- No plain stretch starts where something is opened. -/
theorem plainRun_of_opened {c : Char} {r : List Char} (h : (opened? (c :: r)).isSome = true) :
    plainRun (c :: r) = ([], c :: r) := by
  rw [plainRun, if_pos h]

/-- A character that opens nothing is plain. -/
theorem plainRun_of_plain {c : Char} {r : List Char} (h : opened? (c :: r) = none) :
    plainRun (c :: r) = (c :: (plainRun r).1, (plainRun r).2) := by
  rw [plainRun, h, if_neg (by simp)]

/-- A stretch in which nothing is opened ends where something is, or with the text. -/
theorem plainRun_stretch {s rest : List Char} (h : Unopened (s ++ rest.take 1))
    (hr : rest = [] ∨ (opened? rest).isSome = true) : plainRun (s ++ rest) = (s, rest) := by
  induction s with
  | nil =>
    cases rest with
    | nil => rfl
    | cons c r => exact plainRun_of_opened (hr.resolve_left (List.cons_ne_nil c r))
  | cons a s ih =>
    rw [List.cons_append, plainRun_of_plain (opened?_stretch h), ih (List.IsChain.tail h)]

/-- What is taken as plain opens nothing, also not with the first character behind it. -/
theorem unopened_plainRun (s : List Char) :
    Unopened ((plainRun s).1 ++ (plainRun s).2.take 1) := by
  fun_induction plainRun s with
  | case1 => exact .nil
  | case2 c r h => exact .singleton c
  | case3 c r h ih =>
    have hjoin : (plainRun r).1 ++ (plainRun r).2 = r := plainRun_append r
    refine List.IsChain.cons ih fun b hb => ?_
    have hhead : r.head? = some b := by
      rw [← hjoin, List.head?_append]
      simpa [List.head?_append, List.head?_take] using hb
    obtain ⟨t, rfl⟩ := List.head?_eq_some_iff.mp hhead
    exact opened?_pair (by simpa using h)

/-- Behind what is taken as plain something is opened, or the text ends. -/
theorem opened?_plainRun (s : List Char) :
    (plainRun s).2 = [] ∨ (opened? (plainRun s).2).isSome = true := by
  fun_induction plainRun s with
  | case1 => exact .inl rfl
  | case2 c r h => exact .inr h
  | case3 c r h ih => exact ih

/-! ### Delimited pieces -/

/-- What stands between delimiters ends at the first closing one. -/
theorem closeAt?_inner {c : Char} {inner : List Char}
    (h : (inner ++ [c]).IsChain fun a b => ¬ (a = c ∧ b = '}')) (rest : List Char) :
    closeAt? c (inner ++ c :: '}' :: rest) = some (inner, rest) := by
  induction inner with
  | nil => simp [closeAt?]
  | cons a inner ih =>
    obtain ⟨b, s, hb⟩ : ∃ b s, inner ++ [c] = b :: s :=
      List.exists_cons_of_ne_nil (by simp)
    have hcons : inner ++ c :: '}' :: rest = b :: (s ++ '}' :: rest) := by
      rw [← List.cons_append, ← hb, List.append_assoc, List.singleton_append]
    rw [List.cons_append, hb] at h
    obtain ⟨hab, htail⟩ := List.isChain_cons_cons.mp h
    have hrest := ih (hb ▸ htail)
    rw [List.cons_append, hcons, closeAt?, if_neg hab, ← hcons, hrest]
    rfl

theorem opened?_delimited (kind : Delimiter) (inner rest : List Char) :
    opened? ((Piece.delimited kind inner).source ++ rest) =
      some (kind, inner ++ kind.closing :: '}' :: rest) := by
  cases kind <;> simp [Piece.source, Delimiter.opening, Delimiter.closing, opened?, Delimiter.ofChar?]

/-- What is taken up to a closing delimiter does not contain it. -/
theorem unclosed_closeAt? {kind : Delimiter} {s inner rest : List Char}
    (h : closeAt? kind.closing s = some (inner, rest)) : Unclosed kind inner := by
  fun_induction closeAt? kind.closing s generalizing inner rest with
  | case1 a b r hc =>
    cases h
    exact .singleton _
  | case2 a b r hc ih =>
    simp only [Option.map_eq_some_iff, Prod.exists, Prod.mk.injEq] at h
    obtain ⟨i, r', hr, rfl, rfl⟩ := h
    have htext : b :: r = i ++ kind.closing :: '}' :: r' := closeAt?_append hr
    refine List.IsChain.cons (ih hr) fun d hd => ?_
    have hhead : (b :: r).head? = some d := by
      rw [htext]
      cases i <;> simpa using hd
    rw [← Option.some.inj hhead]
    exact hc
  | case3 => cases h

/-! ### Texts -/

theorem isDelimited_head_nil : ∀ p ∈ ([] : List Piece).head?, p.IsDelimited := by
  intro p hp
  cases hp

theorem isDelimited_head_delimited (kind : Delimiter) (inner : List Char) (ps : List Piece) :
    ∀ p ∈ (Piece.delimited kind inner :: ps).head?, p.IsDelimited := by
  intro p hp
  cases hp
  trivial

theorem piecesFrom_of_opened {offset : Nat} {s body inner rest : List Char} {kind : Delimiter}
    (ho : opened? s = some (kind, body)) (hc : closeAt? kind.closing body = some (inner, rest)) :
    piecesFrom offset s =
      (piecesFrom (offset + byteLength (Piece.delimited kind inner).source) rest).map
        ((offset, .delimited kind inner) :: ·) := by
  cases s with
  | nil => cases ho
  | cons c r =>
    rw [piecesFrom.eq_def]
    simp only
    split
    · rename_i kind' body' ho'
      rw [ho] at ho'
      cases ho'
      split
      · rename_i inner' rest' hc'
        rw [hc] at hc'
        cases hc'
        rfl
      · rename_i hc'
        rw [hc] at hc'
        cases hc'
    · rename_i ho'
      rw [ho] at ho'
      cases ho'

theorem piecesFrom_of_plain {offset : Nat} {c : Char} {r : List Char} (h : opened? (c :: r) = none) :
    piecesFrom offset (c :: r) =
      (piecesFrom (offset + byteLength (c :: (plainRun r).1)) (plainRun r).2).map
        ((offset, .plain (c :: (plainRun r).1)) :: ·) := by
  rw [piecesFrom.eq_def]
  simp only
  split
  · rename_i hsome
    rw [h] at hsome
    cases hsome
  · rfl

theorem IsTiling.isDelimited_head {ps : List Piece} (h : IsTiling ps)
    (ho : (opened? (piecesSource ps)).isSome = true) : ∀ p ∈ ps.head?, p.IsDelimited := by
  cases h with
  | nil => exact isDelimited_head_nil
  | @plain content ps hne hunopened _ _ =>
    obtain ⟨a, s, rfl⟩ := List.exists_cons_of_ne_nil hne
    rw [piecesSource_cons, Piece.source, List.cons_append, opened?_stretch hunopened] at ho
    cases ho
  | delimited => exact isDelimited_head_delimited _ _ _

/-- **Pieces that tile their text are found in it.** -/
theorem IsTiling.piecesFrom_located {ps : List Piece} (h : IsTiling ps) (offset : Nat) :
    piecesFrom offset (piecesSource ps) = .ok (located offset ps) := by
  induction h generalizing offset with
  | nil =>
    rw [piecesSource_nil, piecesFrom.eq_def]
    rfl
  | @plain content ps hne hunopened hnext _ ih =>
    have hr : piecesSource ps = [] ∨ (opened? (piecesSource ps)).isSome = true := by
      cases ps with
      | nil => exact .inl rfl
      | cons p ps =>
        cases p with
        | plain => exact absurd (hnext _ rfl) id
        | delimited => exact .inr (by rw [piecesSource_cons, opened?_delimited]; rfl)
    obtain ⟨a, s, rfl⟩ := List.exists_cons_of_ne_nil hne
    have hrun : plainRun (s ++ piecesSource ps) = (s, piecesSource ps) :=
      plainRun_stretch (List.IsChain.tail hunopened) hr
    rw [piecesSource_cons, Piece.source, List.cons_append,
      piecesFrom_of_plain (opened?_stretch hunopened), hrun, ih]
    rfl
  | @delimited kind inner ps hunclosed _ ih =>
    have hclose := closeAt?_inner hunclosed (piecesSource ps)
    rw [piecesSource_cons, piecesFrom_of_opened (opened?_delimited kind inner _) hclose, ih]
    rfl

/-- What is found in a text tiles it. -/
theorem exists_isTiling {offset : Nat} {s : List Char} {ps : List (Nat × Piece)}
    (h : piecesFrom offset s = .ok ps) :
    ∃ qs, ps = located offset qs ∧ s = piecesSource qs ∧ IsTiling qs := by
  fun_induction piecesFrom offset s generalizing ps with
  | case1 =>
    cases h
    exact ⟨[], rfl, rfl, .nil⟩
  | case2 offset c r kind body hopen inner rest hclose piece =>
    rename_i ih
    obtain ⟨ps, hrest, rfl⟩ := map_ok_iff.mp h
    obtain ⟨qs, rfl, rfl, htiling⟩ := ih hrest
    refine ⟨.delimited kind inner :: qs, rfl, ?_, .delimited (unclosed_closeAt? hclose) htiling⟩
    rw [opened?_append hopen, closeAt?_append hclose]
    simp [Piece.source]
  | case3 => cases h
  | case4 offset c r hnone content =>
    rename_i ih
    obtain ⟨ps, hrest, rfl⟩ := map_ok_iff.mp h
    obtain ⟨qs, rfl, hsource, htiling⟩ := ih hrest
    have hunopened := unopened_plainRun (c :: r)
    rw [plainRun_of_plain hnone, hsource] at hunopened
    have hnext : ∀ p ∈ qs.head?, p.IsDelimited := by
      rcases opened?_plainRun r with hnil | hopen
      · rw [hnil] at hsource
        cases qs with
        | nil => exact isDelimited_head_nil
        | cons q qs =>
          cases htiling with
          | plain hne => exact absurd (List.append_eq_nil_iff.mp hsource.symm).1 hne
          | delimited => exact isDelimited_head_delimited _ _ _
      · exact htiling.isDelimited_head (hsource ▸ hopen)
    refine ⟨.plain content :: qs, rfl, ?_, .plain (List.cons_ne_nil _ _) hunopened hnext htiling⟩
    rw [piecesSource_cons, ← hsource]
    exact (congrArg (c :: ·) (plainRun_append r)).symm

/-- **A text falls into pieces exactly if they tile it.** -/
theorem piecesFrom_ok_iff {offset : Nat} {s : List Char} {ps : List (Nat × Piece)} :
    piecesFrom offset s = .ok ps ↔
      ∃ qs, ps = located offset qs ∧ s = piecesSource qs ∧ IsTiling qs := by
  constructor
  · exact exists_isTiling
  · rintro ⟨qs, rfl, rfl, htiling⟩
    exact htiling.piecesFrom_located offset

theorem take_one_piecesSource {p : Piece} (h : p.IsDelimited) (ps : List Piece) :
    (piecesSource (p :: ps)).take 1 = ['{'] := by
  cases p with
  | plain => cases h
  | delimited => rfl

theorem IsTiling.unclosed {qs rs : List Piece} {kind : Delimiter} {inner : List Char}
    (h : IsTiling (qs ++ .delimited kind inner :: rs)) : Unclosed kind inner := by
  induction qs with
  | nil => cases h with | delimited hinner _ => exact hinner
  | cons q qs ih => cases h with | plain _ _ _ rest | delimited _ rest => exact ih rest

/-- What stands between two delimiters matters to no other piece. -/
theorem IsTiling.replace {qs rs : List Piece} {kind : Delimiter} {inner inner' : List Char}
    (h : IsTiling (qs ++ .delimited kind inner :: rs)) (hinner : Unclosed kind inner') :
    IsTiling (qs ++ .delimited kind inner' :: rs) := by
  induction qs with
  | nil =>
    cases h with
    | delimited _ rest => exact .delimited hinner rest
  | cons q qs ih =>
    cases h with
    | delimited unclosed rest => exact .delimited unclosed (ih rest)
    | plain hne hunopened hnext rest =>
      cases qs with
      | nil => exact .plain hne hunopened (fun _ hp => Option.some.inj hp ▸ trivial) (ih rest)
      | cons q qs =>
        have hq : q.IsDelimited := hnext q rfl
        have htake : ∀ us, (piecesSource (q :: us)).take 1 = ['{'] := take_one_piecesSource hq
        refine .plain hne ?_ hnext (ih rest)
        exact (htake (qs ++ .delimited kind inner' :: rs)).symm ▸
          htake (qs ++ .delimited kind inner :: rs) ▸ hunopened

end ExperimentKpi.Template
