/-
# Blocks that are left open

Tokens leave a block open if its tag stands among them and what closes it does not. `Opens` says which
blocks they leave open, over the grammar of blocks: what stands before the tag of a block leaves the
blocks around it open, and from that tag on stands a part of a loop or of a choice, which ends in the
loop's body, in a branch, or behind the tag that starts what else there is (`Within`). With each block
stands the byte offset of its own tag.

The open blocks of a builder are those that the tokens so far leave open. Every step keeps this
(`Opens.step`), so every state that is reached does, and where the expressions of the tokens can be
read, such a state is reached (`exists_readTokens_iff`).

Key definitions: `Place`, `Within`, `Opens`, `Builder.openBlocks`.
Key theorems: `Opens.step`, `Opens.reads`, `exists_readTokens_iff`, `Opens.exists_start`.
-/
import ExperimentKpi.Proofs.Template.Blocks

namespace ExperimentKpi.Template

/-- Where one can be in an open block. -/
inductive Place where
  | loop
  | branch
  | otherwise
deriving DecidableEq, Repr

/-- The roles of an open block, from its own tag up to the place where they end. Blocks in it nest at
most `n` deep. -/
inductive Within (n : Nat) : Place → List Role → Prop where
  | loop {rs : List Role} (body : Generates .block n rs) : Within n .loop (.loopStart :: rs)
  | branch {rs : List Role} (branches : Generates .branches n rs) : Within n .branch rs
  | otherwise {rs ss : List Role} (branches : Generates .branches n rs)
      (body : Generates .block n ss) : Within n .otherwise (rs ++ .otherwiseStart :: ss)

/-- The blocks that tokens leave open, the innermost first: the place where the tokens end in each of
them, and the byte offset of its own tag. -/
inductive Opens : List Token → List (Place × Nat) → Prop where
  | outermost {ts : List Token} (h : Generates .block maxNesting (ts.map Token.role)) : Opens ts []
  | inner {before us : List Token} {stack : List (Place × Nat)} {place : Place} {n offset : Nat}
      {content : List Char} (outer : Opens before stack) (room : stack.length + 1 + n = maxNesting)
      (within : Within n place ((Token.tag offset content :: us).map Token.role)) :
      Opens (before ++ .tag offset content :: us) ((place, offset) :: stack)

/-- The place in an open block, and the byte offset of its tag. -/
def Opened.entry : Opened → Place × Nat
  | loop offset .. => (.loop, offset)
  | branch offset .. => (.branch, offset)
  | otherwise offset .. => (.otherwise, offset)

/-- The open blocks of a tree under construction. -/
def Builder.openBlocks (b : Builder) : List (Place × Nat) :=
  b.stack.map Opened.entry

/-- The places at which a role closes the block. -/
def Role.closes : Role → List Place
  | loopEnd => [.loop]
  | choiceEnd => [.branch, .otherwise]
  | _ => []

/-! ### Going on in a block -/

namespace Within

variable {n : Nat} {place : Place} {rs ss : List Role} {r : Role}

/-- An item more. -/
theorem extend (h : Within n place rs) (hitem : Generates .item n ss) :
    Within n place (rs ++ ss) := by
  cases h with
  | loop body => exact .loop (.snoc body hitem)
  | branch branches =>
    cases branches with
    | first body => exact .branch (.first (.snoc body hitem))
    | next before body =>
      rw [List.append_assoc, List.cons_append]
      exact .branch (.next before (.snoc body hitem))
  | otherwise branches body =>
    rw [List.append_assoc, List.cons_append]
    exact .otherwise branches (.snoc body hitem)

/-- What closes a block makes it an item of the block around it. -/
theorem closed (h : Within n place rs) (hr : place ∈ r.closes) :
    Generates .item (n + 1) (rs ++ [r]) := by
  cases h with
  | loop body =>
    obtain rfl : r = .loopEnd := by cases r <;> simp [Role.closes] at hr ⊢
    exact .loop body
  | branch branches =>
    obtain rfl : r = .choiceEnd := by cases r <;> simp [Role.closes] at hr ⊢
    exact .choice branches
  | otherwise branches body =>
    obtain rfl : r = .choiceEnd := by cases r <;> simp [Role.closes] at hr ⊢
    exact .choiceElse branches body

/-- The tag of a branch starts the next one. -/
theorem nextBranch (h : Within n .branch rs) : Within n .branch (rs ++ [.branchStart]) := by
  cases h with
  | branch branches => exact .branch (.next branches .empty)

theorem startOtherwise (h : Within n .branch rs) :
    Within n .otherwise (rs ++ [.otherwiseStart]) := by
  cases h with
  | branch branches => exact .otherwise branches .empty

end Within

namespace Opens

variable {ts us : List Token} {t : Token} {stack : List (Place × Nat)} {place place' : Place}
  {offset : Nat} {content : List Char} {b b' : Builder}

/-- An item more in the innermost block. -/
theorem extend (h : Opens ts stack)
    (hitem : ∀ n, stack.length + n = maxNesting → Generates .item n (us.map Token.role)) :
    Opens (ts ++ us) stack := by
  cases h with
  | outermost h =>
    refine .outermost ?_
    rw [List.map_append]
    exact .snoc h (hitem _ (Nat.zero_add _))
  | inner outer room within =>
    rw [List.append_assoc, List.cons_append]
    refine .inner outer room ?_
    rw [← List.cons_append, List.map_append]
    exact within.extend (hitem _ room)

/-- A tag that opens a block. -/
theorem opened (h : Opens ts stack) (room : stack.length < maxNesting)
    (hopen : ∀ n, Within n place [(Token.tag offset content).role]) :
    Opens (ts ++ [.tag offset content]) ((place, offset) :: stack) :=
  .inner h (Nat.add_sub_cancel' room) (hopen _)

/-- A tag behind which the innermost block goes on at another place. -/
theorem moved (h : Opens ts ((place, offset) :: stack))
    (hmove : ∀ n rs, Within n place rs → Within n place' (rs ++ [t.role])) :
    Opens (ts ++ [t]) ((place', offset) :: stack) := by
  cases h with
  | inner outer room within =>
    rw [List.append_assoc, List.cons_append]
    refine .inner outer room ?_
    rw [← List.cons_append, List.map_append]
    exact hmove _ _ within

/-- A tag that closes the innermost block. -/
theorem closed (h : Opens ts ((place, offset) :: stack)) (hclose : place ∈ t.role.closes) :
    Opens (ts ++ [t]) stack := by
  cases h with
  | @inner _ _ _ _ n _ _ outer room within =>
    rw [List.append_assoc]
    refine outer.extend fun m hm => ?_
    obtain rfl : m = n + 1 := by omega
    rw [List.map_append]
    exact within.closed hclose

/-- **Every step keeps which blocks are open.** -/
theorem step (h : Opens ts b.openBlocks) (hs : b.Steps t b') :
    Opens (ts ++ [t]) b'.openBlocks := by
  cases hs with
  | text content => exact h.extend fun n _ => .text
  | output => exact h.extend fun n _ => .output
  | loopStart role room =>
    refine h.opened (by rwa [Builder.openBlocks, List.length_map]) fun n => ?_
    rw [role]
    exact .loop .empty
  | choiceStart role room =>
    refine h.opened (by rwa [Builder.openBlocks, List.length_map]) fun n => ?_
    rw [role]
    exact .branch (.first .empty)
  | branchStart role =>
    exact h.moved fun n rs hw => by rw [role]; exact hw.nextBranch
  | otherwiseStart role =>
    exact h.moved fun n rs hw => by rw [role]; exact hw.startOtherwise
  | loopEnd role | choiceEnd role | otherwiseEnd role =>
    exact h.closed (by rw [role]; decide)

end Opens

/-- A token that makes a step can be read. -/
theorem Builder.Steps.isReadable {b b' : Builder} {t : Token} (h : b.Steps t b') :
    t.IsReadable := by
  cases h with
  | text => exact Token.isReadable_of_role (r := .text) rfl (by decide)
  | output ho => exact Token.isReadable_output ho
  | loopStart role _ header => exact Token.isReadable_loop role header
  | choiceStart role _ header => exact Token.isReadable_condition (.inl role) header
  | branchStart role header => exact Token.isReadable_condition (.inr role) header
  | loopEnd role | otherwiseStart role | choiceEnd role | otherwiseEnd role =>
    exact Token.isReadable_of_role role (by decide)

/-- Every state that is reached has the blocks open that the tokens leave open. -/
theorem opens_of_readTokens {ts : List Token} {b : Builder}
    (h : Builder.empty.readTokens ts = .ok b) :
    (∀ t ∈ ts, t.IsReadable) ∧ Opens ts b.openBlocks := by
  induction ts using List.reverseRecOn generalizing b with
  | nil =>
    cases h
    exact ⟨nofun, .outermost .empty⟩
  | append_singleton ts t ih =>
    obtain ⟨b', hts, hstep⟩ := Builder.readTokens_append_ok_iff.mp h
    obtain ⟨hread, hopens⟩ := ih hts
    rw [List.forall_mem_append, List.forall_mem_singleton]
    by_cases ht : t = .text []
    · subst ht
      cases hstep
      exact ⟨⟨hread, (Builder.Steps.text (b := b) []).isReadable⟩, hopens.extend fun n _ => .text⟩
    · have hs := (Builder.readTokens_singleton_ok_iff ht).mp hstep
      exact ⟨⟨hread, hs.isReadable⟩, hopens.step hs⟩

/-! ### Open blocks are reached -/

/-- A block of tokens that can be read is read. -/
theorem Generates.readTokens {n : Nat} {ts : List Token}
    (h : Generates .block n (ts.map Token.role)) (hts : ∀ t ∈ ts, t.IsReadable) (b : Builder)
    (room : b.stack.length + n ≤ maxNesting) :
    ∃ nodes, b.readTokens ts = .ok ⟨b.stack, nodes⟩ := by
  obtain ⟨⟨ns⟩ | _ | _, ⟨⟩, hgrows⟩ := h.grows rfl hts
  exact ⟨_, hgrows.goes b room⟩

/-- Branches start with the tag of their choice, and behind them that choice is open. -/
theorem Generates.readBranches {n : Nat} {rs : List Role} (h : Generates .branches n rs)
    {ts : List Token} (hrs : ts.map Token.role = rs) (hts : ∀ t ∈ ts, t.IsReadable) :
    ∃ offset content us, ts = .tag offset content :: us ∧
      ∀ b : Builder, b.stack.length + 1 + n ≤ maxNesting →
        ∃ finished c nodes, b.readTokens ts =
          .ok ⟨.branch offset finished c b.nodes :: b.stack, nodes⟩ := by
  generalize hphrase : BlockPhrase.branches = phrase at h
  induction h generalizing ts with
  | first body =>
    obtain ⟨t, us, rfl, ht, hbody⟩ := List.map_eq_cons_iff.mp hrs
    obtain ⟨hstart, hread⟩ := List.forall_mem_cons.mp hts
    obtain ⟨c, hc⟩ := hstart.condition (.inl ht)
    obtain ⟨offset, content, rfl⟩ := Token.exists_tag_of_role ht (by decide)
    refine ⟨offset, content, us, rfl, fun b room => ?_⟩
    subst hbody
    obtain ⟨nodes, hnodes⟩ := body.readTokens hread
      ⟨.branch offset [] c b.nodes :: b.stack, []⟩ (by rw [List.length_cons]; omega)
    exact ⟨[], c, nodes, Builder.readTokens_cons (.choiceStart ht (by omega) hc) hnodes⟩
  | next before body ih =>
    obtain ⟨vs, rest, rfl, hvs, hrest⟩ := List.map_eq_append_iff.mp hrs
    obtain ⟨t, us, rfl, ht, hbody⟩ := List.map_eq_cons_iff.mp hrest
    obtain ⟨hfirst, hsecond⟩ := List.forall_mem_append.mp hts
    obtain ⟨hstart, hread⟩ := List.forall_mem_cons.mp hsecond
    obtain ⟨d, hd⟩ := hstart.condition (.inr ht)
    obtain ⟨offset', content', rfl⟩ := Token.exists_tag_of_role ht (by decide)
    obtain ⟨offset, content, ws, rfl, hreads⟩ := ih hvs hfirst rfl
    refine ⟨offset, content, ws ++ .tag offset' content' :: us, rfl, fun b room => ?_⟩
    obtain ⟨finished, c, nodes, hbefore⟩ := hreads b room
    subst hbody
    obtain ⟨nodes', hnodes⟩ := body.readTokens hread
      ⟨.branch offset ((c, nodes.reverse) :: finished) d b.nodes :: b.stack, []⟩
      (by rw [List.length_cons]; omega)
    exact ⟨_, d, nodes', Builder.readTokens_append hbefore
      (Builder.readTokens_cons (.branchStart ht hd) hnodes)⟩
  | _ => cases hphrase

/-- What stands in an open block from its tag on is read, and the block is open then. -/
theorem Within.readTokens {n offset : Nat} {place : Place} {content : List Char} {us : List Token}
    (h : Within n place ((Token.tag offset content :: us).map Token.role))
    (hread : ∀ t ∈ Token.tag offset content :: us, t.IsReadable) (b : Builder)
    (room : b.stack.length + 1 + n ≤ maxNesting) :
    ∃ b', b.readTokens (.tag offset content :: us) = .ok b' ∧
      b'.openBlocks = (place, offset) :: b.openBlocks := by
  generalize hrs : (Token.tag offset content :: us).map Token.role = rs at h
  cases h with
  | loop body =>
    obtain ⟨hrole, rfl⟩ := List.cons.inj hrs
    obtain ⟨hstart, hbody⟩ := List.forall_mem_cons.mp hread
    obtain ⟨⟨name, source⟩, hheader⟩ := hstart.loop hrole
    obtain ⟨nodes, hnodes⟩ := body.readTokens hbody ⟨.loop offset name source b.nodes :: b.stack, []⟩
      (by rw [List.length_cons]; omega)
    exact ⟨_, Builder.readTokens_cons (.loopStart hrole (by omega) hheader) hnodes, rfl⟩
  | branch branches =>
    obtain ⟨_, _, _, ⟨⟩, hreads⟩ := branches.readBranches hrs hread
    obtain ⟨finished, c, nodes, hb⟩ := hreads b room
    exact ⟨_, hb, rfl⟩
  | otherwise branches body =>
    obtain ⟨vs, rest, hsplit, hvs, hrest⟩ := List.map_eq_append_iff.mp hrs
    obtain ⟨t, ws, rfl, ht, rfl⟩ := List.map_eq_cons_iff.mp hrest
    rw [hsplit] at hread ⊢
    obtain ⟨hbranches, hother⟩ := List.forall_mem_append.mp hread
    obtain ⟨offset', content', vs, rfl, hreads⟩ := branches.readBranches hvs hbranches
    obtain ⟨⟨⟩, -⟩ := List.cons.inj hsplit
    obtain ⟨offset'', content'', rfl⟩ := Token.exists_tag_of_role ht (by decide)
    obtain ⟨finished, c, nodes, hb⟩ := hreads b room
    obtain ⟨nodes', hnodes⟩ := body.readTokens (List.forall_mem_cons.mp hother).2
      ⟨.otherwise offset ((c, nodes.reverse) :: finished).reverse b.nodes :: b.stack, []⟩
      (by rw [List.length_cons]; omega)
    exact ⟨_, Builder.readTokens_append hb (Builder.readTokens_cons (.otherwiseStart ht) hnodes),
      rfl⟩

/-- Tokens that can be read are read up to a state with the blocks open that they leave open. -/
theorem Opens.reads {ts : List Token} {stack : List (Place × Nat)} (h : Opens ts stack)
    (hts : ∀ t ∈ ts, t.IsReadable) :
    ∃ b, Builder.empty.readTokens ts = .ok b ∧ b.openBlocks = stack := by
  induction h with
  | outermost h =>
    obtain ⟨nodes, hnodes⟩ := h.readTokens hts Builder.empty (Nat.zero_add _).le
    exact ⟨_, hnodes, rfl⟩
  | inner outer room within ih =>
    obtain ⟨hbefore, hwithin⟩ := List.forall_mem_append.mp hts
    obtain ⟨b, hb, rfl⟩ := ih hbefore
    rw [Builder.openBlocks, List.length_map] at room
    obtain ⟨b', hb', hopen⟩ := within.readTokens hwithin b room.le
    exact ⟨b', Builder.readTokens_append hb hb', hopen⟩

/-- **Tokens are read up to a state with certain blocks open exactly if they can be read and leave
these blocks open.** -/
theorem exists_readTokens_iff {ts : List Token} {stack : List (Place × Nat)} :
    (∃ b, Builder.empty.readTokens ts = .ok b ∧ b.openBlocks = stack) ↔
      (∀ t ∈ ts, t.IsReadable) ∧ Opens ts stack := by
  constructor
  · rintro ⟨b, hb, rfl⟩
    exact opens_of_readTokens hb
  · rintro ⟨hread, hopens⟩
    exact hopens.reads hread

/-! ### The tags of open blocks -/

/-- The role that opens the block of a place. -/
def Place.start : Place → Role
  | loop => .loopStart
  | branch | otherwise => .choiceStart

/-- Branches start with the tag of their choice. -/
theorem Generates.head_branches {n : Nat} {rs : List Role} (h : Generates .branches n rs) :
    rs.head? = some .choiceStart := by
  generalize hphrase : BlockPhrase.branches = phrase at h
  induction h with
  | first => rfl
  | next _ _ ih => rw [List.head?_append, ih hphrase]; rfl
  | _ => cases hphrase

theorem Within.head {n : Nat} {place : Place} {rs : List Role} (h : Within n place rs) :
    rs.head? = some place.start := by
  cases h with
  | loop => rfl
  | branch branches => exact branches.head_branches
  | otherwise branches => rw [List.head?_append, branches.head_branches]; rfl

/-- The offset of an open block is that of the tag that opened it. -/
theorem Opens.exists_start {ts : List Token} {place : Place} {offset : Nat}
    {stack : List (Place × Nat)} (h : Opens ts ((place, offset) :: stack)) :
    ∃ content, .tag offset content ∈ ts ∧ (Token.tag offset content).role = place.start := by
  cases h with
  | inner _ _ within =>
    exact ⟨_, List.mem_append_right _ List.mem_cons_self, Option.some.inj within.head⟩

end ExperimentKpi.Template
