/-
# Dashes next to delimiters

A dash next to a delimiter takes blanks from the template's own text and does nothing else. One dash
more leaves the pieces of a text as they are but for the piece that gets it, whose content stays the
same (`pieces_gainsMark`), and the tokens as they are but for the blanks of texts and the bytes where
tokens start (`map_bare_allTokensAfter`). Such tokens grow into the same tree with other blanks: where
the one grow the others do, and rendering gives the same characters that are no blanks or fails with
the same error (`Grows.exists_showsSame`). So a template stays one, and shows the same
(`render_gainsMark`).

Key definitions: `Text.visible`, `HasDelimiters`, `GainsMark`, `Token.bare`, `Growth.ShowsSame`.
Key theorems: `pieces_gainsMark`, `map_bare_allTokensAfter`, `Grows.exists_showsSame`,
`render_gainsMark`.
-/
import ExperimentKpi.Proofs.Template.Joining

namespace ExperimentKpi.Text

/-- The characters of a text that are no blanks. -/
def visible (s : List Char) : List Char :=
  s.filter (!isBlank ·)

theorem visible_append (s t : List Char) : visible (s ++ t) = visible s ++ visible t :=
  List.filter_append s t

theorem visible_trimStart (s : List Char) : visible (trimStart s) = visible s := by
  unfold visible trimStart
  induction s with
  | nil => rfl
  | cons c s ih =>
    by_cases hc : isBlank c = true
    · simpa [hc] using ih
    · rw [List.dropWhile_cons, if_neg hc]

theorem visible_trimEnd (s : List Char) : visible (trimEnd s) = visible s := by
  have hreverse : ∀ t : List Char, visible t.reverse = (visible t).reverse :=
    fun t => List.filter_reverse
  rw [trimEnd, hreverse]
  calc (visible (trimStart s.reverse)).reverse = (visible s.reverse).reverse := by
        rw [visible_trimStart]
    _ = visible s := by rw [hreverse, List.reverse_reverse]

end ExperimentKpi.Text

namespace ExperimentKpi.Template

open Text (visible)

/-! ### One dash more -/

/-- A delimited piece that is found in a text, with the texts before and behind it. -/
structure HasDelimiters (s before : List Char) (kind : Delimiter) (inner after : List Char) :
    Prop where
  text : s = before ++ (Piece.delimited kind inner).source ++ after
  found : ∃ ps, pieces s = .ok ps ∧ (byteLength before, .delimited kind inner) ∈ ps

/-- The second text is the first with one dash more: right behind an opening delimiter that has none
there, or right before a closing one that has none. -/
inductive GainsMark (s : List Char) : List Char → Prop where
  | opening {before inner after : List Char} {kind : Delimiter}
      (delimiters : HasDelimiters s before kind inner after) (unmarked : inner.head? ≠ some '-') :
      GainsMark s (before ++ (Piece.delimited kind ('-' :: inner)).source ++ after)
  | closing {before inner after : List Char} {kind : Delimiter}
      (delimiters : HasDelimiters s before kind inner after)
      (unmarked : inner.getLast? ≠ some '-') :
      GainsMark s (before ++ (Piece.delimited kind (inner ++ ['-'])).source ++ after)

/-- What a piece says: a plain stretch its text, another piece its content. -/
def Piece.content : Piece → Option Delimiter × List Char
  | plain content => (none, content)
  | delimited kind inner => (some kind, (Inner.ofText inner).content)

/-- The content behind the place of an opening dash. -/
def contentBefore (body : List Char) : List Char :=
  Text.trim (if body.getLast? == some '-' then body.dropLast else body)

theorem content_ofText_dash (body : List Char) :
    (Inner.ofText ('-' :: body)).content = contentBefore body := rfl

theorem content_ofText {inner : List Char} (h : inner.head? ≠ some '-') :
    (Inner.ofText inner).content = contentBefore inner := by
  cases inner with
  | nil => rfl
  | cons c r =>
    have hc : c ≠ '-' := by simpa using h
    simp [Inner.ofText, contentBefore, hc]

theorem contentBefore_append {body : List Char} (h : body.getLast? ≠ some '-') :
    contentBefore (body ++ ['-']) = contentBefore body := by
  have hlast : (body.getLast? == some '-') = false := beq_false_of_ne h
  simp [contentBefore, hlast]

/-- An opening dash is no part of the content. -/
theorem content_ofText_opening {inner : List Char} (h : inner.head? ≠ some '-') :
    (Inner.ofText ('-' :: inner)).content = (Inner.ofText inner).content := by
  rw [content_ofText_dash, content_ofText h]

/-- A closing dash is no part of the content. -/
theorem content_ofText_closing {inner : List Char} (h : inner.getLast? ≠ some '-') :
    (Inner.ofText (inner ++ ['-'])).content = (Inner.ofText inner).content := by
  by_cases hhead : inner.head? = some '-'
  · obtain ⟨body, rfl⟩ := List.head?_eq_some_iff.mp hhead
    have hbody : body.getLast? ≠ some '-' := by
      intro hlast
      rw [List.getLast?_cons, hlast] at h
      exact h rfl
    rw [List.cons_append, content_ofText_dash, content_ofText_dash, contentBefore_append hbody]
  · cases inner with
    | nil => rfl
    | cons c r =>
      rw [content_ofText hhead, content_ofText (by simpa using hhead), contentBefore_append h]

theorem closing_ne_dash (kind : Delimiter) : kind.closing ≠ '-' := by
  cases kind <;> decide

/-- A dash closes nothing. -/
theorem Unclosed.opening {kind : Delimiter} {inner : List Char} (h : Unclosed kind inner) :
    Unclosed kind ('-' :: inner) :=
  List.IsChain.cons h fun _ _ hdash => closing_ne_dash kind hdash.1.symm

theorem Unclosed.closing {kind : Delimiter} {inner : List Char} (h : Unclosed kind inner) :
    Unclosed kind (inner ++ ['-']) := by
  have hinner := (List.isChain_append.mp h).1
  have hmark : (inner ++ ['-']).IsChain fun a b => ¬ (a = kind.closing ∧ b = '}') := by
    refine List.isChain_append.mpr ⟨hinner, .singleton _, fun a _ b hb hab => ?_⟩
    obtain rfl : b = '-' := by simpa using hb.symm
    exact absurd hab.2 (by decide)
  refine List.isChain_append.mpr ⟨hmark, .singleton _, fun a ha b _ hab => ?_⟩
  obtain rfl : a = '-' := by simpa using ha.symm
  exact closing_ne_dash kind hab.1.symm

/-- A delimited piece that is found stands between the pieces of the texts before and behind it. -/
theorem HasDelimiters.exists_tiling {s before inner after : List Char} {kind : Delimiter}
    (h : HasDelimiters s before kind inner after) :
    ∃ qs rs, IsTiling (qs ++ .delimited kind inner :: rs) ∧ before = piecesSource qs ∧
      after = piecesSource rs := by
  obtain ⟨ps, hps, hmem⟩ := h.found
  obtain ⟨us, rfl, hsource, htiling⟩ := piecesFrom_ok_iff.mp hps
  obtain ⟨qs, rs, rfl, hlength⟩ := mem_located_iff.mp hmem
  have htext : before ++ ((Piece.delimited kind inner).source ++ after) =
      piecesSource qs ++ ((Piece.delimited kind inner).source ++ piecesSource rs) := by
    rw [← List.append_assoc, ← h.text, hsource, piecesSource_append, piecesSource_cons]
  obtain ⟨hbefore, hrest⟩ := append_inj_of_byteLength htext (by omega)
  exact ⟨qs, rs, htiling, hbefore, List.append_cancel_left hrest⟩

theorem pieces_of_isTiling {ps : List Piece} (h : IsTiling ps) :
    pieces (piecesSource ps) = .ok (located 0 ps) :=
  h.piecesFrom_located 0

theorem map_content_located (offset : Nat) (ps : List Piece) :
    (located offset ps).map (·.2.content) = ps.map Piece.content := by
  conv => rhs; rw [← map_snd_located offset ps, List.map_map]
  rfl

/-- A delimited piece can be exchanged for one that says the same. -/
theorem HasDelimiters.exists_pieces {s before inner inner' after : List Char} {kind : Delimiter}
    (h : HasDelimiters s before kind inner after)
    (hunclosed : Unclosed kind inner → Unclosed kind inner')
    (hcontent : (Inner.ofText inner').content = (Inner.ofText inner).content) :
    ∃ ps qs, pieces s = .ok ps ∧
      pieces (before ++ (Piece.delimited kind inner').source ++ after) = .ok qs ∧
      ps.map (·.2.content) = qs.map (·.2.content) := by
  have hs := h.text
  obtain ⟨qs, rs, htiling, rfl, rfl⟩ := h.exists_tiling
  have hsource : ∀ inner, piecesSource qs ++ (Piece.delimited kind inner).source ++ piecesSource rs =
      piecesSource (qs ++ .delimited kind inner :: rs) := by
    intro inner
    rw [piecesSource_append, piecesSource_cons, List.append_assoc]
  rw [hs, hsource, hsource]
  have hold := pieces_of_isTiling htiling
  have hnew := pieces_of_isTiling (htiling.replace (hunclosed htiling.unclosed))
  refine ⟨_, _, hold, hnew, ?_⟩
  rw [map_content_located, map_content_located, List.map_append, List.map_append, List.map_cons,
    List.map_cons, Piece.content, Piece.content, hcontent]

/-- **A dash more leaves the pieces as they are**, up to the marks of one of them. -/
theorem pieces_gainsMark {s s' : List Char} (h : GainsMark s s') :
    ∃ ps qs, pieces s = .ok ps ∧ pieces s' = .ok qs ∧
      ps.map (·.2.content) = qs.map (·.2.content) := by
  cases h with
  | opening hs hunmarked =>
    exact hs.exists_pieces Unclosed.opening (content_ofText_opening hunmarked)
  | closing hs hunmarked =>
    exact hs.exists_pieces Unclosed.closing (content_ofText_closing hunmarked)

/-! ### Tokens -/

/-- A token without the blanks of a text and without the byte where it starts. -/
def Token.bare : Token → Token
  | text content => text (visible content)
  | output _ content => output 0 content
  | tag _ content => tag 0 content

theorem Token.role_bare (t : Token) : t.bare.role = t.role := by
  cases t <;> rfl

theorem Token.header_bare (t : Token) : t.bare.header = t.header := by
  cases t <;> rfl

theorem visible_trimmedText (atStart atEnd : Bool) (content : List Char) :
    visible (trimmedText atStart atEnd content) = visible content := by
  cases atStart <;> cases atEnd <;>
    simp [trimmedText, Text.visible_trimStart, Text.visible_trimEnd]

/-- **Marks decide over blanks only**: pieces that say the same have the same bare tokens. -/
theorem map_bare_allTokensAfter {ps qs : List (Nat × Piece)}
    (h : ps.map (·.2.content) = qs.map (·.2.content)) (trimmed trimmed' : Bool) :
    (allTokensAfter trimmed ps).map Token.bare = (allTokensAfter trimmed' qs).map Token.bare := by
  induction ps generalizing qs trimmed trimmed' with
  | nil =>
    obtain rfl := List.map_eq_nil_iff.mp h.symm
    rfl
  | cons p ps ih =>
    obtain ⟨q, qs, rfl, hq, hrest⟩ := List.map_eq_cons_iff.mp h.symm
    obtain ⟨o, x | ⟨kind, inner⟩⟩ := p <;> obtain ⟨o', y | ⟨kind', inner'⟩⟩ := q
    · obtain rfl : y = x := congrArg Prod.snd hq
      rw [allTokensAfter, allTokensAfter, List.map_cons, List.map_cons, ih hrest.symm false false,
        Token.bare, Token.bare, visible_trimmedText, visible_trimmedText]
    · cases hq
    · cases hq
    · obtain ⟨hkind, hcontent⟩ := Prod.mk.inj hq
      obtain rfl := Option.some.inj hkind
      have htail := ih hrest.symm (Inner.ofText inner).trimAfter (Inner.ofText inner').trimAfter
      cases kind' <;> simp only [allTokensAfter, List.map_cons, Token.bare, hcontent, htail]

/-! ### Rendering -/

/-- What can be seen of an outcome: the characters that are no blanks, or the error. -/
def shown (r : Except RenderError (List Char)) : Except RenderError (List Char) :=
  r.map visible

variable {scope : Scope}

theorem shown_append {a b a' b' : Except RenderError (List Char)} (ha : shown a = shown a')
    (hb : shown b = shown b') :
    shown (do let x ← a; let y ← b; return x ++ y) =
      shown (do let x ← a'; let y ← b'; return x ++ y) := by
  have hsplit : ∀ a b : Except RenderError (List Char),
      shown (do let x ← a; let y ← b; return x ++ y) =
        (do let x ← shown a; let y ← shown b; return x ++ y) := by
    intro a b
    cases a with
    | error e => rfl
    | ok x =>
      cases b with
      | error e => rfl
      | ok y => exact congrArg Except.ok (Text.visible_append x y)
  rw [hsplit, hsplit, ha, hb]

theorem shown_eachItem {body body' : Nat → Json → Except RenderError (List Char)}
    (h : ∀ index item, shown (body index item) = shown (body' index item)) :
    ∀ (index : Nat) (items : List Json),
      shown (eachItem body index items) = shown (eachItem body' index items)
  | _, [] => rfl
  | index, item :: r => shown_append (h index item) (shown_eachItem h (index + 1) r)

theorem nodesRender_singleton (scope : Scope) (n : Node) : nodesRender scope [n] = n.render scope := by
  rw [nodesRender, nodesRender]
  cases n.render scope with
  | error e => rfl
  | ok x => exact congrArg Except.ok (List.append_nil x)

theorem Node.render_choice (scope : Scope) (bs : List (Cond × List Node)) (ns : List Node) :
    (Node.choice bs ns).render scope = (branchesRender scope bs).getD (nodesRender scope ns) := by
  rw [Node.render]
  cases branchesRender scope bs <;> rfl

/-- The branches behind others count where none of those holds. -/
theorem branchesRender_append (scope : Scope) (bs cs : List (Cond × List Node)) :
    branchesRender scope (bs ++ cs) = (branchesRender scope bs).or (branchesRender scope cs) := by
  induction bs with
  | nil => rfl
  | cons b bs ih =>
    obtain ⟨c, body⟩ := b
    rw [List.cons_append, branchesRender, branchesRender, ih]
    split <;> rfl

/-! ### Trees -/

/-- Both are rendered to the same visible characters in every scope, or fail with the same error. -/
def Growth.ShowsSame : Growth → Growth → Prop
  | block ns, block ms | item ns, item ms =>
    ∀ scope, shown (nodesRender scope ns) = shown (nodesRender scope ms)
  | branches bs, branches cs =>
    ∀ scope, (branchesRender scope bs).map shown = (branchesRender scope cs).map shown
  | _, _ => False

namespace Growth.ShowsSame

variable {ns ns' ms ms' : List Node} {bs bs' : List (Cond × List Node)}

theorem exists_block {g : Growth} (h : (block ns).ShowsSame g) : ∃ ms, g = block ms := by
  cases g with
  | block ms => exact ⟨ms, rfl⟩
  | item | branches => cases h

theorem exists_item {g : Growth} (h : (item ns).ShowsSame g) : ∃ ms, g = item ms := by
  cases g with
  | item ms => exact ⟨ms, rfl⟩
  | block | branches => cases h

theorem exists_branches {g : Growth} (h : (branches bs).ShowsSame g) : ∃ cs, g = branches cs := by
  cases g with
  | branches cs => exact ⟨cs, rfl⟩
  | block | item => cases h

theorem snoc (h : (block ns).ShowsSame (block ns')) (h' : (item ms).ShowsSame (item ms')) :
    (block (ns ++ ms)).ShowsSame (block (ns' ++ ms')) := by
  intro scope
  rw [nodesRender_append, nodesRender_append]
  exact shown_append (h scope) (h' scope)

theorem loop (h : (block ns).ShowsSame (block ns')) (name : String) (source : Path) :
    (item [.loop name source ns]).ShowsSame (item [.loop name source ns']) := by
  intro scope
  rw [nodesRender_singleton, nodesRender_singleton, Node.render, Node.render]
  cases scope.items source with
  | error e => rfl
  | ok items => exact shown_eachItem (fun _ _ => h _) 0 items

theorem choice (h : (branches bs).ShowsSame (branches bs'))
    (h' : (block ns).ShowsSame (block ns')) :
    (item [.choice bs ns]).ShowsSame (item [.choice bs' ns']) := by
  intro scope
  have hgetD : ∀ (r : Option (Except RenderError (List Char))) (q : Except RenderError (List Char)),
      shown (r.getD q) = (r.map shown).getD (shown q) := by
    intro r q
    cases r <;> rfl
  rw [nodesRender_singleton, nodesRender_singleton, Node.render_choice, Node.render_choice, hgetD,
    hgetD, h scope, h' scope]

theorem first (h : (block ns).ShowsSame (block ns')) (c : Cond) :
    (branches [(c, ns)]).ShowsSame (branches [(c, ns')]) := by
  intro scope
  simp only [branchesRender]
  split
  · exact congrArg some (h scope)
  · rfl

theorem next (h : (branches bs).ShowsSame (branches bs')) (h' : (block ns).ShowsSame (block ns'))
    (c : Cond) : (branches (bs ++ [(c, ns)])).ShowsSame (branches (bs' ++ [(c, ns')])) := by
  intro scope
  rw [branchesRender_append, branchesRender_append, Option.map_or, Option.map_or, h scope,
    first h' c scope]

end Growth.ShowsSame

theorem Token.role_of_bare_eq {t u : Token} (h : u.bare = t.bare) : u.role = t.role := by
  rw [← u.role_bare, h, t.role_bare]

theorem Token.header_of_bare_eq {t u : Token} (h : u.bare = t.bare) : u.header = t.header := by
  rw [← u.header_bare, h, t.header_bare]

/-- **Tokens that differ in blanks grow alike**: where the ones grow the others do, into what shows the
same. -/
theorem Grows.exists_showsSame {n : Nat} {ts us : List Token} {g : Growth} (h : Grows n ts g)
    (hu : us.map Token.bare = ts.map Token.bare) : ∃ g', Grows n us g' ∧ g.ShowsSame g' := by
  induction h generalizing us with
  | empty =>
    obtain rfl := List.map_eq_nil_iff.mp hu
    exact ⟨_, .empty, fun _ => rfl⟩
  | snoc _ _ ihb ihl =>
    rw [List.map_append] at hu
    obtain ⟨before, last, rfl, hb, hl⟩ := List.map_eq_append_iff.mp hu
    obtain ⟨gb, hgb, hsb⟩ := ihb hb
    obtain ⟨gl, hgl, hsl⟩ := ihl hl
    obtain ⟨ns, rfl⟩ := hsb.exists_block
    obtain ⟨ms, rfl⟩ := hsl.exists_item
    exact ⟨_, .snoc hgb hgl, hsb.snoc hsl⟩
  | text content =>
    obtain ⟨u, rfl, hbare⟩ := List.map_eq_singleton_iff.mp hu
    cases u with
    | text content' =>
      have hvisible : visible content' = visible content := Token.text.inj hbare
      refine ⟨_, .text content', fun scope => ?_⟩
      rw [nodesRender_textNodes, nodesRender_textNodes]
      exact congrArg Except.ok hvisible.symm
    | output | tag => cases hbare
  | output ho =>
    obtain ⟨u, rfl, hbare⟩ := List.map_eq_singleton_iff.mp hu
    cases u with
    | output offset content =>
      obtain ⟨-, rfl⟩ := Token.output.inj hbare
      exact ⟨_, .output ho, fun _ => rfl⟩
    | text | tag => cases hbare
  | loop start header _ stop ih =>
    rw [List.map_append] at hu
    obtain ⟨front, last, rfl, hfront, hlast⟩ := List.map_eq_append_iff.mp hu
    obtain ⟨t, body, rfl, ht, hbody⟩ := List.map_eq_cons_iff.mp hfront
    obtain ⟨u, rfl, hend⟩ := List.map_eq_singleton_iff.mp hlast
    obtain ⟨g, hg, hs⟩ := ih hbody
    obtain ⟨ns, rfl⟩ := hs.exists_block
    have hheader := (Token.header_of_bare_eq ht).symm ▸ header
    exact ⟨_, .loop ((Token.role_of_bare_eq ht).trans start) hheader hg
      ((Token.role_of_bare_eq hend).trans stop), hs.loop _ _⟩
  | choice _ stop ih =>
    rw [List.map_append] at hu
    obtain ⟨front, last, rfl, hfront, hlast⟩ := List.map_eq_append_iff.mp hu
    obtain ⟨u, rfl, hend⟩ := List.map_eq_singleton_iff.mp hlast
    obtain ⟨g, hg, hs⟩ := ih hfront
    obtain ⟨bs, rfl⟩ := hs.exists_branches
    exact ⟨_, .choice hg ((Token.role_of_bare_eq hend).trans stop), hs.choice (fun _ => rfl)⟩
  | choiceElse _ start _ stop ihb iho =>
    rw [List.map_append, List.map_append] at hu
    obtain ⟨front, last, rfl, hfront, hlast⟩ := List.map_eq_append_iff.mp hu
    obtain ⟨branches, rest, rfl, hbranches, hrest⟩ := List.map_eq_append_iff.mp hfront
    obtain ⟨t, body, rfl, ht, hbody⟩ := List.map_eq_cons_iff.mp hrest
    obtain ⟨u, rfl, hend⟩ := List.map_eq_singleton_iff.mp hlast
    obtain ⟨gb, hgb, hsb⟩ := ihb hbranches
    obtain ⟨go, hgo, hso⟩ := iho hbody
    obtain ⟨bs, rfl⟩ := hsb.exists_branches
    obtain ⟨ns, rfl⟩ := hso.exists_block
    exact ⟨_, .choiceElse hgb ((Token.role_of_bare_eq ht).trans start) hgo
      ((Token.role_of_bare_eq hend).trans stop), hsb.choice hso⟩
  | first start header _ ih =>
    obtain ⟨t, body, rfl, ht, hbody⟩ := List.map_eq_cons_iff.mp hu
    obtain ⟨g, hg, hs⟩ := ih hbody
    obtain ⟨ns, rfl⟩ := hs.exists_block
    have hheader := (Token.header_of_bare_eq ht).symm ▸ header
    exact ⟨_, .first ((Token.role_of_bare_eq ht).trans start) hheader hg, hs.first _⟩
  | next _ start header _ ihb ih =>
    rw [List.map_append] at hu
    obtain ⟨before, rest, rfl, hbefore, hrest⟩ := List.map_eq_append_iff.mp hu
    obtain ⟨t, body, rfl, ht, hbody⟩ := List.map_eq_cons_iff.mp hrest
    obtain ⟨gb, hgb, hsb⟩ := ihb hbefore
    obtain ⟨g, hg, hs⟩ := ih hbody
    obtain ⟨bs, rfl⟩ := hsb.exists_branches
    obtain ⟨ns, rfl⟩ := hs.exists_block
    have hheader := (Token.header_of_bare_eq ht).symm ▸ header
    exact ⟨_, .next hgb ((Token.role_of_bare_eq ht).trans start) hheader hg, hsb.next hs _⟩

/-- **A dash next to a delimiter takes nothing but blanks.** A template stays a template with one dash
more, right behind an opening delimiter or right before a closing one. For every context both fail
with the same error, or both give texts that are equal without their blanks. -/
theorem render_gainsMark {s s' : String} {t : Template} (ht : parse s = .ok t)
    (h : GainsMark s.toList s'.toList) :
    ∃ t', parse s' = .ok t' ∧ ∀ context,
      (t'.render context).map (fun text => visible text.toList) =
        (t.render context).map (fun text => visible text.toList) := by
  obtain ⟨ps, qs, hps, hqs, hcontent⟩ := pieces_gainsMark h
  have hgrows := (parse_ok_iff hps).mp ht
  have hbare : (allTokens qs).map Token.bare = (allTokens ps).map Token.bare :=
    map_bare_allTokensAfter hcontent.symm false false
  obtain ⟨g, hg, hs⟩ := hgrows.exists_showsSame hbare
  obtain ⟨ns, rfl⟩ := hs.exists_block
  refine ⟨⟨ns⟩, (parse_ok_iff hqs).mpr hg, fun context => ?_⟩
  have hshown : ∀ ms : List Node, ((Template.mk ms).render context).map
      (fun text => visible text.toList) = shown (nodesRender ⟨context, []⟩ ms) := by
    intro ms
    unfold Template.render shown
    cases nodesRender ⟨context, []⟩ ms with
    | error e => rfl
    | ok x => exact congrArg (Except.ok ∘ visible) String.toList_ofList
  rw [hshown ns, show t = ⟨t.nodes⟩ from rfl, hshown t.nodes]
  exact (hs _).symm

/-- A negative number between blanks. -/
def spacedNumber : String := " 1 \x7b\x7b -5 \x7d\x7d 2"

/-- The same with a dash behind the opening delimiter. -/
def dashedNumber : String := " 1 \x7b\x7b- -5 \x7d\x7d 2"

theorem render_gainsMark_number : GainsMark spacedNumber.toList dashedNumber.toList ∧
    ∃ t t', parse spacedNumber = .ok t ∧ parse dashedNumber = .ok t' ∧
      t.render (.obj []) = .ok " 1 -5 2" ∧ t'.render (.obj []) = .ok " 1-5 2" ∧
      ∀ context, (t'.render context).map (fun text => visible text.toList) =
        (t.render context).map (fun text => visible text.toList) := by
  have hs : HasDelimiters spacedNumber.toList [' ', '1', ' '] .output [' ', '-', '5', ' '] [' ', '2'] :=
    ⟨by decide, [(0, .plain " 1 ".toList), (3, .delimited .output " -5 ".toList),
      (11, .plain " 2".toList)], by decide +kernel, by decide⟩
  have hmark : GainsMark spacedNumber.toList dashedNumber.toList := .opening hs (by decide)
  obtain ⟨t, ht, hrender⟩ : ∃ t, parse spacedNumber = .ok t ∧ t.render (.obj []) = .ok " 1 -5 2" :=
    ⟨_, (parse_ofList _).trans (by with_unfolding_all rfl), by decide +kernel⟩
  obtain ⟨u, hu, hrender'⟩ : ∃ u, parse dashedNumber = .ok u ∧ u.render (.obj []) = .ok " 1-5 2" :=
    ⟨_, (parse_ofList _).trans (by with_unfolding_all rfl), by decide +kernel⟩
  obtain ⟨t', ht', hvisible⟩ := render_gainsMark ht hmark
  obtain rfl : t' = u := Except.ok.inj (ht'.symm.trans hu)
  exact ⟨hmark, t, t', ht, ht', hrender, hrender', hvisible⟩

end ExperimentKpi.Template
