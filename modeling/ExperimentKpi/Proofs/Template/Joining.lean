/-
# Templates in a row

Two texts are cut into their pieces where they meet, unless a brace before the joint opens something
with the character behind it; only the plain stretches next to the joint become one
(`piecesFrom_append`). Where no dash looks over the joint, the tokens of both texts stand in a row, so
the nodes of the one follow those of the other, and rendering gives their texts in a row.

Key definitions: `Joined`, `inners`, `endsTrimming`.
Key theorems: `piecesFrom_append`, `allTokensAfter_append`, `Grows.shift`, `nodesRender_append`,
`render_append`.
-/
import ExperimentKpi.Proofs.Template.Blocks
import ExperimentKpi.Proofs.Template.Source
import ExperimentKpi.Template.Render

namespace ExperimentKpi.Template

/-! ### Delimiters -/

theorem closeAt?_append_right {c : Char} {s inner rest : List Char}
    (h : closeAt? c s = some (inner, rest)) (t : List Char) :
    closeAt? c (s ++ t) = some (inner, rest ++ t) := by
  fun_induction closeAt? c s generalizing inner rest with
  | case1 a b r hc =>
    cases h
    simp [closeAt?, hc]
  | case2 a b r hc ih =>
    simp only [Option.map_eq_some_iff, Prod.exists, Prod.mk.injEq] at h
    obtain ⟨i, r', hr, rfl, rfl⟩ := h
    have hrest := ih hr
    rw [List.cons_append] at hrest
    rw [List.cons_append, List.cons_append, closeAt?, if_neg hc, hrest]
    rfl
  | case3 => cases h

/-- Where nothing is opened, nothing is with more text behind either, unless the text before is a single
brace. -/
theorem opened?_append_eq_none {a : Char} {s : List Char} (h : opened? (a :: s) = none)
    (hlast : (a :: s).getLast? ≠ some '{') (t : List Char) : opened? (a :: (s ++ t)) = none := by
  cases s with
  | nil => exact opened?_of_ne (by simpa using hlast)
  | cons b s => exact opened?_cons (opened?_pair h)

theorem getLast?_of_append {s t : List Char} (h : (s ++ t).getLast? ≠ some '{') :
    t.getLast? ≠ some '{' := by
  intro ht
  rw [List.getLast?_append, ht] at h
  exact h rfl

/-- A stretch that is plain to its end goes on into the text behind it, unless it ends with a brace;
another one ends where it did. -/
theorem plainRun_append_right {s : List Char} (hlast : s.getLast? ≠ some '{') (t : List Char) :
    plainRun (s ++ t) =
      if (plainRun s).2 = [] then (s ++ (plainRun t).1, (plainRun t).2)
      else ((plainRun s).1, (plainRun s).2 ++ t) := by
  induction s with
  | nil => rfl
  | cons a s ih =>
    cases hopen : opened? (a :: s) with
    | some opening =>
      have hopen' := opened?_append_right hopen t
      rw [List.cons_append] at hopen' ⊢
      simp [plainRun, hopen, hopen']
    | none =>
      have hopen' := opened?_append_eq_none hopen hlast t
      rw [List.cons_append, plainRun_of_plain hopen, plainRun_of_plain hopen',
        ih (getLast?_of_append (s := [a]) hlast)]
      by_cases hrest : (plainRun s).2 = [] <;> simp [hrest]

/-! ### Pieces -/

/-- The pieces of two texts in a row: all of them, or the plain stretches next to the joint as one. -/
inductive Joined : List (Nat × Piece) → List (Nat × Piece) → List (Nat × Piece) → Prop where
  | apart (ps qs : List (Nat × Piece)) : Joined ps qs (ps ++ qs)
  | merged (ps : List (Nat × Piece)) (o o' : Nat) (x y : List Char) (qs : List (Nat × Piece)) :
      Joined (ps ++ [(o, .plain x)]) ((o', .plain y) :: qs) (ps ++ (o, .plain (x ++ y)) :: qs)

theorem Joined.cons {ps qs rs : List (Nat × Piece)} (h : Joined ps qs rs) (p : Nat × Piece) :
    Joined (p :: ps) qs (p :: rs) := by
  cases h with
  | apart => exact .apart (p :: ps) qs
  | merged ps o o' x y qs => exact .merged (p :: ps) o o' x y qs

/-- A text that is plain to its end, with the text behind it. -/
theorem piecesFrom_append_of_plain {c : Char} {r t : List Char} {offset : Nat}
    {qs : List (Nat × Piece)} (h : opened? (c :: r) = none) (hrun : (plainRun r).2 = [])
    (ht : piecesFrom (offset + byteLength (c :: r)) t = .ok qs)
    (hlast : (c :: r).getLast? ≠ some '{') :
    ∃ rs, piecesFrom offset (c :: (r ++ t)) = .ok rs ∧
      Joined [(offset, .plain (c :: r))] qs rs := by
  have hjoint : plainRun (r ++ t) = (r ++ (plainRun t).1, (plainRun t).2) := by
    rw [plainRun_append_right (getLast?_of_append (s := [c]) hlast), if_pos hrun]
  rw [piecesFrom_of_plain (opened?_append_eq_none h hlast t), hjoint]
  have hapart : plainRun t = ([], t) →
      ∃ rs, (piecesFrom (offset + byteLength (c :: (r ++ (plainRun t).1))) (plainRun t).2).map
        ((offset, .plain (c :: (r ++ (plainRun t).1))) :: ·) = .ok rs ∧
        Joined [(offset, .plain (c :: r))] qs rs := by
    intro ht'
    rw [ht', List.append_nil, ht]
    exact ⟨_, rfl, .apart _ _⟩
  cases t with
  | nil => exact hapart rfl
  | cons d t =>
    cases hopen : opened? (d :: t) with
    | some opening => exact hapart (plainRun_of_opened (by rw [hopen]; rfl))
    | none =>
      rw [piecesFrom_of_plain hopen] at ht
      obtain ⟨qs, hrest, rfl⟩ := map_ok_iff.mp ht
      rw [plainRun_of_plain hopen, ← List.cons_append, byteLength_append, ← Nat.add_assoc, hrest]
      exact ⟨_, rfl, .merged [] ..⟩

/-- **Two texts are cut into their pieces where they meet.** -/
theorem piecesFrom_append {s t : List Char} {offset : Nat} {ps qs : List (Nat × Piece)}
    (hs : piecesFrom offset s = .ok ps) (ht : piecesFrom (offset + byteLength s) t = .ok qs)
    (hlast : s.getLast? ≠ some '{') :
    ∃ rs, piecesFrom offset (s ++ t) = .ok rs ∧ Joined ps qs rs := by
  fun_induction piecesFrom offset s generalizing ps with
  | case1 offset =>
    cases hs
    exact ⟨qs, ht, .apart [] qs⟩
  | case2 offset c r kind body hopen inner rest hclose piece =>
    rename_i ih
    obtain ⟨ps, hrest, rfl⟩ := map_ok_iff.mp hs
    have hsource : c :: r = (Piece.delimited kind inner).source ++ rest := by
      rw [opened?_append hopen, closeAt?_append hclose]
      simp [Piece.source]
    rw [hsource] at ht hlast
    rw [byteLength_append, ← Nat.add_assoc] at ht
    obtain ⟨rs, hrs, hjoined⟩ := ih hrest ht (getLast?_of_append hlast)
    refine ⟨_, ?_, hjoined.cons _⟩
    rw [piecesFrom_of_opened (opened?_append_right hopen t) (closeAt?_append_right hclose t), hrs]
    rfl
  | case3 => cases hs
  | case4 offset c r hnone content =>
    rename_i ih
    obtain ⟨ps, hrest, rfl⟩ := map_ok_iff.mp hs
    have hsource : c :: r = content ++ (plainRun r).2 := by
      rw [List.cons_append, plainRun_append]
    -- Only a stretch that reaches the joint can go on behind it.
    by_cases hrun : (plainRun r).2 = []
    · have hcontent : content = c :: r := by
        rw [hsource, hrun, List.append_nil]
      rw [hrun, piecesFrom.eq_def] at hrest
      cases hrest
      rw [hcontent]
      exact piecesFrom_append_of_plain hnone hrun ht hlast
    · have hrun' : plainRun (r ++ t) = ((plainRun r).1, (plainRun r).2 ++ t) := by
        rw [plainRun_append_right (getLast?_of_append (s := [c]) hlast), if_neg hrun]
      rw [hsource, byteLength_append, ← Nat.add_assoc] at ht
      obtain ⟨rs, hrs, hjoined⟩ := ih hrest ht (getLast?_of_append (hsource ▸ hlast))
      refine ⟨_, ?_, hjoined.cons _⟩
      rw [List.cons_append, piecesFrom_of_plain (opened?_append_eq_none hnone hlast t), hrun', hrs]
      rfl

/-- Pieces that start so many bytes later. -/
def later (k : Nat) (ps : List (Nat × Piece)) : List (Nat × Piece) :=
  ps.map fun p => (p.1 + k, p.2)

theorem piecesFrom_later {s : List Char} {offset : Nat} {ps : List (Nat × Piece)}
    (h : piecesFrom offset s = .ok ps) (k : Nat) : piecesFrom (offset + k) s = .ok (later k ps) := by
  fun_induction piecesFrom offset s generalizing ps with
  | case1 =>
    cases h
    rw [piecesFrom.eq_def]
    rfl
  | case2 offset c r kind body hopen inner rest hclose piece =>
    rename_i ih
    obtain ⟨ps, hrest, rfl⟩ := map_ok_iff.mp h
    rw [piecesFrom_of_opened hopen hclose, Nat.add_right_comm, ih hrest]
    rfl
  | case3 => cases h
  | case4 offset c r hnone content =>
    rename_i ih
    obtain ⟨ps, hrest, rfl⟩ := map_ok_iff.mp h
    rw [piecesFrom_of_plain hnone, Nat.add_right_comm, ih hrest]
    rfl

/-! ### Tokens -/

/-- Whether a piece trims the text after it. -/
def Piece.trimsAfter : Piece → Bool
  | plain _ => false
  | delimited _ inner => (Inner.ofText inner).trimAfter

/-- Whether the last one of the pieces trims the text after it; `trimmed` says this of the piece before
them. -/
def endsTrimming (trimmed : Bool) (ps : List (Nat × Piece)) : Bool :=
  ps.foldl (fun _ p => p.2.trimsAfter) trimmed

/-- What stands between the delimiters of a piece. -/
def Piece.inner? : Piece → Option Inner
  | plain _ => none
  | delimited _ inner => some (.ofText inner)

/-- What stands between the delimiters of pieces. -/
def inners (ps : List (Nat × Piece)) : List Inner :=
  ps.filterMap (·.2.inner?)

theorem trimsBefore_append {qs : List (Nat × Piece)} (h : trimsBefore qs = false)
    (ps : List (Nat × Piece)) : trimsBefore (ps ++ qs) = trimsBefore ps := by
  cases ps with
  | nil => exact h
  | cons p ps => obtain ⟨offset, content | ⟨kind, inner⟩⟩ := p <;> rfl

/-- **Pieces in a row have their tokens in a row**, if the second ones do not trim the text before
them. -/
theorem allTokensAfter_append {qs : List (Nat × Piece)} (h : trimsBefore qs = false) (trimmed : Bool)
    (ps : List (Nat × Piece)) : allTokensAfter trimmed (ps ++ qs) =
      allTokensAfter trimmed ps ++ allTokensAfter (endsTrimming trimmed ps) qs := by
  induction ps generalizing trimmed with
  | nil => rfl
  | cons p ps ih =>
    obtain ⟨offset, content | ⟨kind, inner⟩⟩ := p
    · simp only [List.cons_append, allTokensAfter, trimsBefore_append h, ih]
      rfl
    · cases kind <;> simp only [List.cons_append, allTokensAfter, ih] <;> rfl

/-- The text at the end of pieces stays as it is if no delimiter before it trims it. -/
theorem endsTrimming_eq_false {ps : List (Nat × Piece)}
    (h : ∀ i ∈ (inners ps).getLast?, i.trimAfter = false) : endsTrimming false ps = false := by
  induction ps using List.reverseRecOn with
  | nil => rfl
  | append_singleton ps p =>
    obtain ⟨offset, content | ⟨kind, inner⟩⟩ := p
    · simp [endsTrimming, Piece.trimsAfter]
    · simpa [endsTrimming, Piece.trimsAfter, inners, Piece.inner?] using h

theorem trimsBefore_eq_false {qs : List (Nat × Piece)}
    (h : ∀ i ∈ (inners qs).head?, i.trimBefore = false) : trimsBefore qs = false := by
  cases qs with
  | nil => rfl
  | cons q qs =>
    obtain ⟨offset, content | ⟨kind, inner⟩⟩ := q
    · rfl
    · exact h _ rfl

/-- A token that starts so many bytes later. -/
def Token.later (k : Nat) : Token → Token
  | text content => text content
  | output offset content => output (offset + k) content
  | tag offset content => tag (offset + k) content

theorem trimsBefore_later (k : Nat) (ps : List (Nat × Piece)) :
    trimsBefore (later k ps) = trimsBefore ps := by
  cases ps with
  | nil => rfl
  | cons p ps => obtain ⟨offset, content | ⟨kind, inner⟩⟩ := p <;> rfl

theorem inners_later (k : Nat) (ps : List (Nat × Piece)) : inners (later k ps) = inners ps := by
  rw [inners, later, List.filterMap_map]
  rfl

theorem allTokensAfter_later (k : Nat) (trimmed : Bool) (ps : List (Nat × Piece)) :
    allTokensAfter trimmed (later k ps) = (allTokensAfter trimmed ps).map (Token.later k) := by
  induction ps generalizing trimmed with
  | nil => rfl
  | cons p ps ih =>
    obtain ⟨offset, content | ⟨kind, inner⟩⟩ := p
    · rw [later, List.map_cons, ← later, allTokensAfter, trimsBefore_later, ih]
      rfl
    · rw [later, List.map_cons, ← later]
      cases kind <;> simp only [allTokensAfter, ih] <;> rfl

/-! ### Nodes -/

@[simp]
theorem Token.role_later (k : Nat) (t : Token) : (t.later k).role = t.role := by
  cases t <;> rfl

@[simp]
theorem Token.header_later (k : Nat) (t : Token) : (t.later k).header = t.header := by
  cases t <;> rfl

/-- What tokens grow into does not depend on where they start. -/
theorem Grows.later {n : Nat} {ts : List Token} {g : Growth} (h : Grows n ts g) (k : Nat) :
    Grows n (ts.map (Token.later k)) g := by
  induction h with
  | empty => exact .empty
  | snoc _ _ ihb ihl =>
    rw [List.map_append]
    exact .snoc ihb ihl
  | text content => exact .text content
  | output ho => exact .output ho
  | loop start header _ stop ih =>
    rw [List.map_append, List.map_cons, List.map_singleton]
    exact .loop (by simpa using start) (by simpa using header) ih (by simpa using stop)
  | choice _ stop ih =>
    rw [List.map_append, List.map_singleton]
    exact .choice ih (by simpa using stop)
  | choiceElse _ start _ stop ihb iho =>
    rw [List.map_append, List.map_append, List.map_cons, List.map_singleton]
    exact .choiceElse ihb (by simpa using start) iho (by simpa using stop)
  | first start header _ ih =>
    rw [List.map_cons]
    exact .first (by simpa using start) (by simpa using header) ih
  | next _ start header _ ihb ih =>
    rw [List.map_append, List.map_cons]
    exact .next ihb (by simpa using start) (by simpa using header) ih

/-- The tokens of two blocks in a row grow into the nodes of both. -/
theorem Grows.append {n : Nat} {ts us : List Token} {ns ms : List Node} (h : Grows n ts (.block ns))
    (h' : Grows n us (.block ms)) : Grows n (ts ++ us) (.block (ns ++ ms)) := by
  generalize hg : Growth.block ms = g at h'
  induction h' generalizing ms with
  | empty =>
    cases hg
    simpa using h
  | snoc _ last ihb =>
    cases hg
    rw [← List.append_assoc, ← List.append_assoc]
    exact .snoc (ihb h rfl) last
  | _ => cases hg

/-- A text at the end leaves its node behind those of the tokens before it. -/
theorem Grows.of_text_last {ts : List Token} {content : List Char} {ns : List Node}
    (h : Grows maxNesting (ts ++ [Token.text content]) (.block ns)) :
    ∃ ms, ns = ms ++ textNodes content ∧ Grows maxNesting ts (.block ms) := by
  have hread := readTokens_ok_iff.mpr ⟨ns, (List.append_nil _).symm, h⟩
  obtain ⟨⟨stack, nodes⟩, hts, htext⟩ := Builder.readTokens_append_ok_iff.mp hread
  rw [Builder.readTokens_text] at htext
  obtain ⟨rfl, hns⟩ := Builder.mk.inj (Except.ok.inj htext)
  obtain ⟨ms, rfl, hms⟩ := readTokens_ok_iff.mp hts
  refine ⟨ms, ?_, hms⟩
  rw [List.append_nil, ← List.reverse_append, List.reverse_inj] at hns
  exact hns.symm

/-- A text at the start leaves its node before those of the tokens behind it. -/
theorem Grows.of_text_first {ts : List Token} {content : List Char} {ns : List Node}
    (h : Grows maxNesting (.text content :: ts) (.block ns)) :
    ∃ ms, ns = textNodes content ++ ms ∧ Grows maxNesting ts (.block ms) := by
  have hread := readTokens_ok_iff.mpr ⟨ns, (List.append_nil _).symm, h⟩
  rw [← List.singleton_append] at hread
  obtain ⟨b, htext, hts⟩ := Builder.readTokens_append_ok_iff.mp hread
  rw [Builder.readTokens_text] at htext
  obtain rfl := Except.ok.inj htext
  obtain ⟨ms, hns, hms⟩ := readTokens_ok_iff.mp hts
  refine ⟨ms, ?_, hms⟩
  rw [List.append_nil, ← List.reverse_append, List.reverse_inj] at hns
  exact hns

/-! ### Rendering -/

/-- **Nodes in a row have their texts in a row**, and fail with the first one that fails. -/
theorem nodesRender_append (scope : Scope) (ns ms : List Node) :
    nodesRender scope (ns ++ ms) = do
      let x ← nodesRender scope ns
      let y ← nodesRender scope ms
      return x ++ y := by
  induction ns with
  | nil =>
    rw [List.nil_append, nodesRender]
    cases nodesRender scope ms <;> rfl
  | cons n ns ih =>
    rw [List.cons_append, nodesRender, nodesRender, ih]
    cases n.render scope with
    | error e => rfl
    | ok here =>
      cases nodesRender scope ns with
      | error e => rfl
      | ok x =>
        cases nodesRender scope ms with
        | error e => rfl
        | ok y => exact congrArg Except.ok (List.append_assoc here x y).symm

theorem nodesRender_textNodes (scope : Scope) (content : List Char) :
    nodesRender scope (textNodes content) = .ok content := by
  cases content with
  | nil => rfl
  | cons c s =>
    rw [textNodes, if_neg (by simp), nodesRender, Node.render, nodesRender]
    exact congrArg Except.ok (List.append_nil _)

/-- The tokens of joined pieces grow into nodes that are rendered as those of the first pieces and then
those of the second ones, if no delimiter trims over the joint. -/
theorem Joined.grows {ps qs rs : List (Nat × Piece)} {ns ms : List Node} (h : Joined ps qs rs)
    (hp : Grows maxNesting (allTokens ps) (.block ns))
    (hq : Grows maxNesting (allTokens qs) (.block ms))
    (hafter : ∀ i ∈ (inners ps).getLast?, i.trimAfter = false)
    (hbefore : ∀ i ∈ (inners qs).head?, i.trimBefore = false) :
    ∃ ls, Grows maxNesting (allTokens rs) (.block ls) ∧
      ∀ scope, nodesRender scope ls = nodesRender scope (ns ++ ms) := by
  cases h with
  | apart =>
    refine ⟨ns ++ ms, ?_, fun _ => rfl⟩
    rw [allTokens, allTokensAfter_append (trimsBefore_eq_false hbefore),
      endsTrimming_eq_false hafter]
    exact hp.append hq
  | merged ps o o' x y qs =>
    have hends : endsTrimming false ps = false :=
      endsTrimming_eq_false (by simpa [inners, Piece.inner?] using hafter)
    have hstarts : trimsBefore qs = false :=
      trimsBefore_eq_false (by simpa [inners, Piece.inner?] using hbefore)
    have htokens : ∀ z us, allTokens (ps ++ (o, Piece.plain z) :: us) =
        allTokens ps ++ Token.text (trimmedText false (trimsBefore us) z) :: allTokensAfter false us := by
      intro z us
      rw [allTokens, allTokensAfter_append rfl, hends]
      rfl
    have hend : allTokens (ps ++ [(o, Piece.plain x)]) = allTokens ps ++ [Token.text x] :=
      htokens x []
    have hstart : allTokens ((o', .plain y) :: qs) = .text y :: allTokensAfter false qs := by
      rw [allTokens, allTokensAfter, hstarts]
      rfl
    have hjoint : allTokens (ps ++ (o, Piece.plain (x ++ y)) :: qs) =
        allTokens ps ++ [Token.text (x ++ y)] ++ allTokensAfter false qs := by
      rw [htokens, hstarts, List.append_cons]
      rfl
    -- The nodes of the two stretches come off, and that of the joint one stands in their place.
    rw [hend] at hp
    rw [hstart] at hq
    rw [hjoint]
    obtain ⟨ns, rfl, hns⟩ := hp.of_text_last
    obtain ⟨ms, rfl, hms⟩ := hq.of_text_first
    refine ⟨ns ++ textNodes (x ++ y) ++ ms, ?_, fun scope => ?_⟩
    · exact (Grows.snoc hns (.text (x ++ y))).append hms
    · simp only [nodesRender_append, nodesRender_textNodes]
      cases nodesRender scope ns with
      | error e => rfl
      | ok v =>
        cases nodesRender scope ms with
        | error e => rfl
        | ok w => exact congrArg Except.ok (by simp only [List.append_assoc])

/-- **Templates in a row.** Where the first text does not end with a brace, its last delimiter has no
closing dash and the first delimiter of the second text no opening one, both texts in a row are a
template too. It is rendered as the first template and then the second one, and fails with the first of
them that fails. -/
theorem render_append {a b : String} {s t : Template} {ps qs : List (Nat × Piece)}
    (hs : parse a = .ok s) (ht : parse b = .ok t) (hps : pieces a.toList = .ok ps)
    (hqs : pieces b.toList = .ok qs) (hlast : a.toList.getLast? ≠ some '{')
    (hafter : ∀ i ∈ (inners ps).getLast?, i.trimAfter = false)
    (hbefore : ∀ i ∈ (inners qs).head?, i.trimBefore = false) :
    ∃ u, parse (a ++ b) = .ok u ∧ ∀ context, u.render context = do
      let x ← s.render context
      let y ← t.render context
      return x ++ y := by
  have hlater := piecesFrom_later hqs (byteLength a.toList)
  obtain ⟨rs, hrs, hjoined⟩ := piecesFrom_append hps hlater hlast
  rw [← String.toList_append] at hrs
  have hq : Grows maxNesting (allTokens (later (byteLength a.toList) qs)) (.block t.nodes) := by
    rw [allTokens, allTokensAfter_later]
    exact ((parse_ok_iff hqs).mp ht).later _
  rw [← inners_later (byteLength a.toList)] at hbefore
  obtain ⟨ls, hgrows, hrender⟩ := hjoined.grows ((parse_ok_iff hps).mp hs) hq hafter hbefore
  refine ⟨⟨ls⟩, (parse_ok_iff hrs).mpr hgrows, fun context => ?_⟩
  rw [Template.render, Template.render, Template.render, hrender, nodesRender_append]
  cases nodesRender ⟨context, []⟩ s.nodes with
  | error e => rfl
  | ok x =>
    cases nodesRender ⟨context, []⟩ t.nodes with
    | error e => rfl
    | ok y => exact congrArg Except.ok String.ofList_append

/-- A text that ends with a plain stretch behind a tag without dashes. -/
def sampleStart : String :=
  "\x7b%- if a -%\x7d x\x7b% endif %\x7d y"

/-- A text that starts with a plain stretch before an output that trims what is behind it. -/
def sampleEnd : String :=
  " z\x7b\x7b a -\x7d\x7d "

theorem render_append_sample : ∃ s t u, parse sampleStart = .ok s ∧ parse sampleEnd = .ok t ∧
    parse (sampleStart ++ sampleEnd) = .ok u ∧ ∀ context, u.render context = do
      let x ← s.render context
      let y ← t.render context
      return x ++ y := by
  obtain ⟨s, hs⟩ : ∃ s, parse sampleStart = .ok s :=
    ⟨_, (parse_ofList _).trans (by with_unfolding_all rfl)⟩
  obtain ⟨t, ht⟩ : ∃ t, parse sampleEnd = .ok t :=
    ⟨_, (parse_ofList _).trans (by with_unfolding_all rfl)⟩
  obtain ⟨ps, hps, hafter⟩ : ∃ ps, pieces sampleStart.toList = .ok ps ∧
    ∀ i ∈ (inners ps).getLast?, i.trimAfter = false :=
    ⟨[(0, .delimited .tag "- if a -".toList), (12, .plain " x".toList),
      (14, .delimited .tag " endif ".toList), (25, .plain " y".toList)], by decide +kernel, by decide⟩
  obtain ⟨qs, hqs, hbefore⟩ : ∃ qs, pieces sampleEnd.toList = .ok qs ∧
    ∀ i ∈ (inners qs).head?, i.trimBefore = false :=
    ⟨[(0, .plain " z".toList), (2, .delimited .output " a -".toList), (10, .plain [' '])],
      by decide +kernel, by decide⟩
  obtain ⟨u, hu, hrender⟩ := render_append hs ht hps hqs (by decide) hafter hbefore
  exact ⟨s, t, u, hs, ht, hu, hrender⟩

end ExperimentKpi.Template
