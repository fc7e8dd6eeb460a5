/-
# The grammar of blocks

A block is a row of texts, outputs, loops and choices; a loop stands between its two tags, and a choice
has one or more branches, perhaps what else there is, and its closing tag. `Generates` is this grammar
over the roles of tokens, which for a tag its first word decides, with a bound for how deep blocks nest.
`Grows` is the same grammar with what the tokens mean: the nodes of a block, and the branches of a
choice with the body that follows each condition.

Tokens whose expressions can all be read and whose roles the grammar generates grow into nodes
(`Generates.grows`). The builder goes on by exactly the nodes that tokens grow into (`Grows.goes`), and
every state that it reaches holds what the tokens so far grow into, with the open blocks around it
(`Reached.step`, `reached_of_readTokens`).

Key definitions: `Token.role`, `Token.header`, `Generates`, `Grows`, `Reached`.
Key theorems: `Generates.grows`, `Grows.goes`, `Reached.step`, `readTokens_ok_iff`, `parse_ok_iff`,
`parse_blocks`.
-/
import ExperimentKpi.Proofs.Sequence
import ExperimentKpi.Proofs.Template.Tags

namespace ExperimentKpi.Template

open Text (isBlank)

/-! ### Roles of tokens -/

/-- What a token is for the structure of blocks. -/
inductive Role where
  | text
  | output
  | loopStart
  | loopEnd
  | choiceStart
  | branchStart
  | otherwiseStart
  | choiceEnd
  | unknown
deriving DecidableEq, Repr

/-- The role of a tag that has the given first word. -/
def Role.ofKeyword : String → Role
  | "for" => loopStart
  | "endfor" => loopEnd
  | "if" => choiceStart
  | "elif" => branchStart
  | "else" => otherwiseStart
  | "endif" => choiceEnd
  | _ => unknown

/-- The first word of a text that starts with no blank. -/
def firstWord (s : List Char) : List Char :=
  s.takeWhile (!isBlank ·)

/-- What stands behind the first word of a text that starts with no blank, without the blanks around
it. -/
def behindFirstWord (s : List Char) : List Char :=
  Text.trim (s.dropWhile (!isBlank ·))

/-- The role of a token: the first word of a tag decides it. -/
def Token.role : Token → Role
  | text _ => .text
  | output .. => .output
  | tag _ content => .ofKeyword (String.ofList (firstWord content))

/-- What a tag has behind its first word. -/
def Token.header : Token → List Char
  | tag _ content => behindFirstWord content
  | _ => []

/-- The expressions of a token can be read: the content of an output, the header of a loop, the
condition of a branch. -/
structure Token.IsReadable (t : Token) : Prop where
  output : ∀ offset content, t = .output offset content → ∃ o, Output.ofText content = .ok o
  loop : t.role = .loopStart → ∃ header, loopHeader t.header = .ok header
  condition : t.role = .choiceStart ∨ t.role = .branchStart → ∃ c, Cond.ofText t.header = .ok c

/-- Cutting at the first blank cuts off the first word. -/
theorem cutAt?_isBlank (s : List Char) : Text.cutAt? isBlank s =
    if s.dropWhile (!isBlank ·) = [] then none
    else some (firstWord s, (s.dropWhile (!isBlank ·)).tail) := by
  induction s with
  | nil => rfl
  | cons c s ih =>
    cases hc : isBlank c with
    | true => simp [Text.cutAt?, firstWord, hc]
    | false =>
      simp only [Text.cutAt?, hc, ih, firstWord, List.dropWhile_cons, List.takeWhile_cons]
      by_cases hrest : s.dropWhile (!isBlank ·) = [] <;> simp [hrest]

/-- Cutting off the keyword cuts off the first word. -/
theorem cutKeyword_eq (s : List Char) : cutKeyword s = (firstWord s, behindFirstWord s) := by
  rw [cutKeyword, cutAt?_isBlank, behindFirstWord]
  cases hrest : s.dropWhile (!isBlank ·) with
  | nil =>
    have hall : firstWord s = s := by
      have hsplit := List.takeWhile_append_dropWhile (p := (!isBlank ·)) (l := s)
      rwa [hrest, List.append_nil] at hsplit
    simp [hall, Text.trim, Text.trimStart, Text.trimEnd]
  | cons c rest =>
    have hc : isBlank c = true := by
      have hhead := List.head?_dropWhile_not (!isBlank ·) s
      rw [hrest] at hhead
      simpa using hhead
    simp [Text.trim, Text.trimStart, hc]

/-! ### The grammar -/

/-- The phrases of the grammar of blocks. -/
inductive BlockPhrase where
  | block
  | item
  | branches
deriving DecidableEq, Repr

/-- The roles of tokens are a phrase in which loops and choices nest at most `n` deep. -/
inductive Generates : BlockPhrase → Nat → List Role → Prop where
  | empty {n : Nat} : Generates .block n []
  | snoc {n : Nat} {rs ss : List Role} (before : Generates .block n rs)
      (last : Generates .item n ss) : Generates .block n (rs ++ ss)
  | text {n : Nat} : Generates .item n [.text]
  | output {n : Nat} : Generates .item n [.output]
  | loop {n : Nat} {rs : List Role} (body : Generates .block n rs) :
      Generates .item (n + 1) (.loopStart :: rs ++ [.loopEnd])
  | choice {n : Nat} {rs : List Role} (branches : Generates .branches n rs) :
      Generates .item (n + 1) (rs ++ [.choiceEnd])
  | choiceElse {n : Nat} {rs ss : List Role} (branches : Generates .branches n rs)
      (otherwise : Generates .block n ss) :
      Generates .item (n + 1) (rs ++ .otherwiseStart :: ss ++ [.choiceEnd])
  | first {n : Nat} {rs : List Role} (body : Generates .block n rs) :
      Generates .branches n (.choiceStart :: rs)
  | next {n : Nat} {rs ss : List Role} (before : Generates .branches n rs)
      (body : Generates .block n ss) : Generates .branches n (rs ++ .branchStart :: ss)

/-- What tokens grow into: the nodes of a block, those of an item of it, or the branches of a choice. -/
inductive Growth where
  | block (nodes : List Node)
  | item (nodes : List Node)
  | branches (branches : List (Cond × List Node))

/-- The phrase of the tokens that grow into something. -/
def Growth.phrase : Growth → BlockPhrase
  | block _ => .block
  | item _ => .item
  | branches _ => .branches

/-- The nodes of a text; an empty one leaves none. -/
def textNodes (content : List Char) : List Node :=
  if content.isEmpty then [] else [.text content]

/-- The grammar with what the tokens mean. Every body belongs to the condition or the loop's header
that it follows. -/
inductive Grows : Nat → List Token → Growth → Prop where
  | empty {n : Nat} : Grows n [] (.block [])
  | snoc {n : Nat} {ts us : List Token} {ns ms : List Node} (before : Grows n ts (.block ns))
      (last : Grows n us (.item ms)) : Grows n (ts ++ us) (.block (ns ++ ms))
  | text {n : Nat} (content : List Char) : Grows n [.text content] (.item (textNodes content))
  | output {n offset : Nat} {content : List Char} {o : Output} (h : Output.ofText content = .ok o) :
      Grows n [.output offset content] (.item [.output o])
  | loop {n : Nat} {t u : Token} {ts : List Token} {name : String} {source : Path} {ns : List Node}
      (start : t.role = .loopStart) (header : loopHeader t.header = .ok (name, source))
      (body : Grows n ts (.block ns)) (stop : u.role = .loopEnd) :
      Grows (n + 1) (t :: ts ++ [u]) (.item [.loop name source ns])
  | choice {n : Nat} {u : Token} {ts : List Token} {bs : List (Cond × List Node)}
      (branches : Grows n ts (.branches bs)) (stop : u.role = .choiceEnd) :
      Grows (n + 1) (ts ++ [u]) (.item [.choice bs []])
  | choiceElse {n : Nat} {t u : Token} {ts us : List Token} {bs : List (Cond × List Node)}
      {ns : List Node} (branches : Grows n ts (.branches bs)) (start : t.role = .otherwiseStart)
      (otherwise : Grows n us (.block ns)) (stop : u.role = .choiceEnd) :
      Grows (n + 1) (ts ++ t :: us ++ [u]) (.item [.choice bs ns])
  | first {n : Nat} {t : Token} {ts : List Token} {c : Cond} {ns : List Node}
      (start : t.role = .choiceStart) (header : Cond.ofText t.header = .ok c)
      (body : Grows n ts (.block ns)) : Grows n (t :: ts) (.branches [(c, ns)])
  | next {n : Nat} {t : Token} {ts us : List Token} {bs : List (Cond × List Node)} {c : Cond}
      {ns : List Node} (before : Grows n ts (.branches bs)) (start : t.role = .branchStart)
      (header : Cond.ofText t.header = .ok c) (body : Grows n us (.block ns)) :
      Grows n (ts ++ t :: us) (.branches (bs ++ [(c, ns)]))

theorem Role.ofKeyword_ne (keyword : String) :
    ofKeyword keyword ≠ .text ∧ ofKeyword keyword ≠ .output := by
  unfold ofKeyword
  repeat' split
  all_goals exact ⟨nofun, nofun⟩

theorem Token.eq_text_of_role {t : Token} (h : t.role = .text) : ∃ content, t = .text content := by
  cases t with
  | text content => exact ⟨content, rfl⟩
  | output => cases h
  | tag => exact absurd h (Role.ofKeyword_ne _).1

theorem Token.eq_output_of_role {t : Token} (h : t.role = .output) :
    ∃ offset content, t = .output offset content := by
  cases t with
  | text => cases h
  | output offset content => exact ⟨offset, content, rfl⟩
  | tag => exact absurd h (Role.ofKeyword_ne _).2

/-- A tag that has no expression can be read. -/
theorem Token.isReadable_of_role {t : Token} {r : Role} (h : t.role = r)
    (hr : r ∉ [Role.output, .loopStart, .choiceStart, .branchStart]) : t.IsReadable := by
  subst h
  simp only [List.mem_cons, List.not_mem_nil, or_false, not_or] at hr
  obtain ⟨houtput, hloop, hchoice, hbranch⟩ := hr
  refine ⟨?_, fun h => absurd h hloop, ?_⟩
  · rintro offset content rfl
    exact absurd rfl houtput
  · rintro (h | h)
    · exact absurd h hchoice
    · exact absurd h hbranch

theorem Token.isReadable_output {offset : Nat} {content : List Char} {o : Output}
    (h : Output.ofText content = .ok o) : (Token.output offset content).IsReadable := by
  refine ⟨?_, nofun, nofun⟩
  rintro _ _ ⟨⟩
  exact ⟨o, h⟩

theorem Token.isReadable_loop {t : Token} {header : String × Path} (h : t.role = .loopStart)
    (hheader : loopHeader t.header = .ok header) : t.IsReadable := by
  refine ⟨?_, fun _ => ⟨header, hheader⟩, fun h' => ?_⟩
  · rintro offset content rfl
    cases h
  · rw [h] at h'
    exact absurd h' (by decide)

theorem Token.isReadable_condition {t : Token} {c : Cond}
    (h : t.role = .choiceStart ∨ t.role = .branchStart) (hc : Cond.ofText t.header = .ok c) :
    t.IsReadable := by
  refine ⟨?_, fun h' => ?_, fun _ => ⟨c, hc⟩⟩
  · rintro offset content rfl
    rcases h with h | h <;> cases h
  · rw [h'] at h
    exact absurd h (by decide)

/-- What tokens grow into shows that their expressions can be read and that the grammar generates their
roles. -/
theorem Grows.generates {n : Nat} {ts : List Token} {g : Growth} (h : Grows n ts g) :
    (∀ t ∈ ts, t.IsReadable) ∧ Generates g.phrase n (ts.map Token.role) := by
  induction h with
  | empty => exact ⟨nofun, .empty⟩
  | snoc _ _ ihb ihl =>
    rw [List.map_append, List.forall_mem_append]
    exact ⟨⟨ihb.1, ihl.1⟩, .snoc ihb.2 ihl.2⟩
  | text content =>
    exact ⟨List.forall_mem_singleton.mpr (Token.isReadable_of_role (r := .text) rfl (by decide)),
      .text⟩
  | output ho => exact ⟨List.forall_mem_singleton.mpr (Token.isReadable_output ho), .output⟩
  | loop start header _ stop ih =>
    rw [List.map_append, List.map_cons, List.map_singleton, start, stop, List.forall_mem_append,
      List.forall_mem_cons, List.forall_mem_singleton]
    exact ⟨⟨⟨Token.isReadable_loop start header, ih.1⟩, Token.isReadable_of_role stop (by decide)⟩,
      .loop ih.2⟩
  | choice _ stop ih =>
    rw [List.map_append, List.map_singleton, stop, List.forall_mem_append,
      List.forall_mem_singleton]
    exact ⟨⟨ih.1, Token.isReadable_of_role stop (by decide)⟩, .choice ih.2⟩
  | choiceElse _ start _ stop ihb iho =>
    rw [List.map_append, List.map_append, List.map_cons, List.map_singleton, start, stop,
      List.forall_mem_append, List.forall_mem_append, List.forall_mem_cons,
      List.forall_mem_singleton]
    exact ⟨⟨⟨ihb.1, Token.isReadable_of_role start (by decide), iho.1⟩,
      Token.isReadable_of_role stop (by decide)⟩, .choiceElse ihb.2 iho.2⟩
  | first start header _ ih =>
    rw [List.map_cons, start, List.forall_mem_cons]
    exact ⟨⟨Token.isReadable_condition (.inl start) header, ih.1⟩, .first ih.2⟩
  | next _ start header _ ihb ih =>
    rw [List.map_append, List.map_cons, start, List.forall_mem_append, List.forall_mem_cons]
    exact ⟨⟨ihb.1, Token.isReadable_condition (.inr start) header, ih.1⟩, .next ihb.2 ih.2⟩

/-- **Tokens whose expressions can be read and whose roles the grammar generates grow.** -/
theorem Generates.grows {phrase : BlockPhrase} {n : Nat} {rs : List Role}
    (h : Generates phrase n rs) {ts : List Token} (hrs : ts.map Token.role = rs)
    (hts : ∀ t ∈ ts, t.IsReadable) : ∃ g : Growth, g.phrase = phrase ∧ Grows n ts g := by
  induction h generalizing ts with
  | empty =>
    obtain rfl := List.map_eq_nil_iff.mp hrs
    exact ⟨_, rfl, .empty⟩
  | snoc _ _ ihb ihl =>
    obtain ⟨before, last, rfl, hb, hl⟩ := List.map_eq_append_iff.mp hrs
    obtain ⟨hbefore, hlast⟩ := List.forall_mem_append.mp hts
    obtain ⟨⟨ns⟩ | _ | _, ⟨⟩, hg⟩ := ihb hb hbefore
    obtain ⟨_ | ⟨ms⟩ | _, ⟨⟩, hg'⟩ := ihl hl hlast
    exact ⟨_, rfl, .snoc hg hg'⟩
  | text =>
    obtain ⟨t, rest, rfl, ht, hrest⟩ := List.map_eq_cons_iff.mp hrs
    obtain rfl := List.map_eq_nil_iff.mp hrest
    obtain ⟨content, rfl⟩ := Token.eq_text_of_role ht
    exact ⟨_, rfl, .text content⟩
  | output =>
    obtain ⟨t, rest, rfl, ht, hrest⟩ := List.map_eq_cons_iff.mp hrs
    obtain rfl := List.map_eq_nil_iff.mp hrest
    obtain ⟨offset, content, rfl⟩ := Token.eq_output_of_role ht
    obtain ⟨o, ho⟩ := (hts _ List.mem_cons_self).output _ _ rfl
    exact ⟨_, rfl, .output ho⟩
  | loop _ ih =>
    obtain ⟨front, last, rfl, hfront, hlast⟩ := List.map_eq_append_iff.mp hrs
    obtain ⟨t, body, rfl, ht, hbody⟩ := List.map_eq_cons_iff.mp hfront
    obtain ⟨u, rfl, hu⟩ := List.map_eq_singleton_iff.mp hlast
    obtain ⟨hstart, -⟩ := List.forall_mem_append.mp hts
    obtain ⟨hstart, hread⟩ := List.forall_mem_cons.mp hstart
    obtain ⟨⟨name, source⟩, hheader⟩ := hstart.loop ht
    obtain ⟨⟨ns⟩ | _ | _, ⟨⟩, hg⟩ := ih hbody hread
    exact ⟨_, rfl, .loop ht hheader hg hu⟩
  | choice _ ih =>
    obtain ⟨front, last, rfl, hfront, hlast⟩ := List.map_eq_append_iff.mp hrs
    obtain ⟨u, rfl, hu⟩ := List.map_eq_singleton_iff.mp hlast
    obtain ⟨_ | _ | ⟨bs⟩, ⟨⟩, hg⟩ := ih hfront (List.forall_mem_append.mp hts).1
    exact ⟨_, rfl, .choice hg hu⟩
  | choiceElse _ _ ihb iho =>
    obtain ⟨front, last, rfl, hfront, hlast⟩ := List.map_eq_append_iff.mp hrs
    obtain ⟨branches, rest, rfl, hbranches, hrest⟩ := List.map_eq_append_iff.mp hfront
    obtain ⟨t, body, rfl, ht, hbody⟩ := List.map_eq_cons_iff.mp hrest
    obtain ⟨u, rfl, hu⟩ := List.map_eq_singleton_iff.mp hlast
    obtain ⟨hfirst, hsecond⟩ := List.forall_mem_append.mp (List.forall_mem_append.mp hts).1
    obtain ⟨_ | _ | ⟨bs⟩, ⟨⟩, hg⟩ := ihb hbranches hfirst
    obtain ⟨⟨ns⟩ | _ | _, ⟨⟩, hg'⟩ := iho hbody (List.forall_mem_cons.mp hsecond).2
    exact ⟨_, rfl, .choiceElse hg ht hg' hu⟩
  | first _ ih =>
    obtain ⟨t, body, rfl, ht, hbody⟩ := List.map_eq_cons_iff.mp hrs
    obtain ⟨hstart, hread⟩ := List.forall_mem_cons.mp hts
    obtain ⟨c, hc⟩ := hstart.condition (.inl ht)
    obtain ⟨⟨ns⟩ | _ | _, ⟨⟩, hg⟩ := ih hbody hread
    exact ⟨_, rfl, .first ht hc hg⟩
  | next _ _ ihb ih =>
    obtain ⟨before, rest, rfl, hbefore, hrest⟩ := List.map_eq_append_iff.mp hrs
    obtain ⟨t, body, rfl, ht, hbody⟩ := List.map_eq_cons_iff.mp hrest
    obtain ⟨hfirst, hsecond⟩ := List.forall_mem_append.mp hts
    obtain ⟨hstart, hread⟩ := List.forall_mem_cons.mp hsecond
    obtain ⟨c, hc⟩ := hstart.condition (.inr ht)
    obtain ⟨_ | _ | ⟨bs⟩, ⟨⟩, hg⟩ := ihb hbefore hfirst
    obtain ⟨⟨ns⟩ | _ | _, ⟨⟩, hg'⟩ := ih hbody hread
    exact ⟨_, rfl, .next hg ht hc hg'⟩

/-! ### What a token does -/

/-- The keywords of tags, with their roles. -/
def tagRoles : List (String × Role) :=
  [("for", .loopStart), ("endfor", .loopEnd), ("if", .choiceStart), ("elif", .branchStart),
    ("else", .otherwiseStart), ("endif", .choiceEnd)]

theorem Role.mem_tagRoles {keyword : String} {r : Role} (h : ofKeyword keyword = r)
    (hr : r ≠ .unknown) : (keyword, r) ∈ tagRoles := by
  subst h
  revert hr
  unfold ofKeyword
  split
  case h_7 => exact fun h => absurd rfl h
  all_goals decide

namespace Builder

/-- What one token does to the tree under construction. -/
inductive Steps : Builder → Token → Builder → Prop where
  | text {b : Builder} (content : List Char) : Steps b (.text content) (b.push (.text content))
  | output {b : Builder} {offset : Nat} {content : List Char} {o : Output}
      (h : Output.ofText content = .ok o) : Steps b (.output offset content) (b.push (.output o))
  | loopStart {b : Builder} {offset : Nat} {content : List Char} {name : String} {source : Path}
      (role : (Token.tag offset content).role = .loopStart) (room : b.stack.length < maxNesting)
      (header : loopHeader (behindFirstWord content) = .ok (name, source)) :
      Steps b (.tag offset content) ⟨.loop offset name source b.nodes :: b.stack, []⟩
  | loopEnd {opened offset : Nat} {content : List Char} {name : String} {source : Path}
      {before nodes : List Node} {stack : List Opened}
      (role : (Token.tag offset content).role = .loopEnd) :
      Steps ⟨.loop opened name source before :: stack, nodes⟩ (.tag offset content)
        ⟨stack, .loop name source nodes.reverse :: before⟩
  | choiceStart {b : Builder} {offset : Nat} {content : List Char} {c : Cond}
      (role : (Token.tag offset content).role = .choiceStart) (room : b.stack.length < maxNesting)
      (header : Cond.ofText (behindFirstWord content) = .ok c) :
      Steps b (.tag offset content) ⟨.branch offset [] c b.nodes :: b.stack, []⟩
  | branchStart {opened offset : Nat} {content : List Char} {finished : List (Cond × List Node)}
      {c d : Cond} {before nodes : List Node} {stack : List Opened}
      (role : (Token.tag offset content).role = .branchStart)
      (header : Cond.ofText (behindFirstWord content) = .ok d) :
      Steps ⟨.branch opened finished c before :: stack, nodes⟩ (.tag offset content)
        ⟨.branch opened ((c, nodes.reverse) :: finished) d before :: stack, []⟩
  | otherwiseStart {opened offset : Nat} {content : List Char}
      {finished : List (Cond × List Node)} {c : Cond} {before nodes : List Node}
      {stack : List Opened} (role : (Token.tag offset content).role = .otherwiseStart) :
      Steps ⟨.branch opened finished c before :: stack, nodes⟩ (.tag offset content)
        ⟨.otherwise opened ((c, nodes.reverse) :: finished).reverse before :: stack, []⟩
  | choiceEnd {opened offset : Nat} {content : List Char} {finished : List (Cond × List Node)}
      {c : Cond} {before nodes : List Node} {stack : List Opened}
      (role : (Token.tag offset content).role = .choiceEnd) :
      Steps ⟨.branch opened finished c before :: stack, nodes⟩ (.tag offset content)
        ⟨stack, .choice ((c, nodes.reverse) :: finished).reverse [] :: before⟩
  | otherwiseEnd {opened offset : Nat} {content : List Char} {bs : List (Cond × List Node)}
      {before nodes : List Node} {stack : List Opened}
      (role : (Token.tag offset content).role = .choiceEnd) :
      Steps ⟨.otherwise opened bs before :: stack, nodes⟩ (.tag offset content)
        ⟨stack, .choice bs nodes.reverse :: before⟩

variable {b b' : Builder} {offset : Nat} {content : List Char} {rest : List Char}

theorem openLoop_ok (h : b.openLoop offset rest = .ok b') :
    b.stack.length < maxNesting ∧ ∃ name source, loopHeader rest = .ok (name, source) ∧
      b' = ⟨.loop offset name source b.nodes :: b.stack, []⟩ := by
  unfold openLoop checkDepth at h
  split at h
  · cases h
  · rename_i hroom
    cases hheader : loopHeader rest with
    | error e => rw [hheader] at h; cases h
    | ok header =>
      rw [hheader] at h
      cases h
      exact ⟨by omega, header.1, header.2, rfl, rfl⟩

theorem openChoice_ok (h : b.openChoice offset rest = .ok b') :
    b.stack.length < maxNesting ∧ ∃ c, Cond.ofText rest = .ok c ∧
      b' = ⟨.branch offset [] c b.nodes :: b.stack, []⟩ := by
  unfold openChoice checkDepth at h
  split at h
  · cases h
  · rename_i hroom
    cases hc : Cond.ofText rest with
    | error e => rw [hc] at h; cases h
    | ok c =>
      rw [hc] at h
      cases h
      exact ⟨by omega, c, rfl, rfl⟩

/-- The role of a tag whose first word is known. -/
theorem role_of_firstWord {keyword : String} (h : String.ofList (firstWord content) = keyword) :
    (Token.tag offset content).role = Role.ofKeyword keyword := by
  subst h
  rfl

/-- The first word of a tag whose role is that of a keyword. -/
theorem firstWord_of_role {keyword : String} (hkeyword : keyword ∈ tagKeywords)
    (h : (Token.tag offset content).role = Role.ofKeyword keyword) :
    String.ofList (firstWord content) = keyword := by
  simp only [tagKeywords, List.mem_cons, List.not_mem_nil, or_false] at hkeyword
  rcases hkeyword with rfl | rfl | rfl | rfl | rfl | rfl
  all_goals simpa [tagRoles, Role.ofKeyword] using Role.mem_tagRoles h (by decide)

theorem steps_of_tag (h : b.tag offset content = .ok b') : b.Steps (.tag offset content) b' := by
  obtain ⟨stack, nodes⟩ := b
  unfold tag at h
  rw [cutKeyword_eq] at h
  simp only at h
  split at h
  · cases h
    exact .loopEnd (role_of_firstWord ‹_›)
  · obtain ⟨d, hd, rfl⟩ := map_ok_iff.mp h
    exact .branchStart (role_of_firstWord ‹_›) hd
  · cases h
    exact .otherwiseStart (role_of_firstWord ‹_›)
  · cases h
    exact .choiceEnd (role_of_firstWord ‹_›)
  · cases h
    exact .otherwiseEnd (role_of_firstWord ‹_›)
  · obtain ⟨hroom, name, source, hheader, rfl⟩ := openLoop_ok h
    exact .loopStart (role_of_firstWord ‹_›) hroom hheader
  · obtain ⟨hroom, c, hc, rfl⟩ := openChoice_ok h
    exact .choiceStart (role_of_firstWord ‹_›) hroom hc
  · cases h

/-- A tag whose role is that of a keyword is cut behind that keyword. -/
theorem cutKeyword_of_role {keyword : String} (hkeyword : keyword ∈ tagKeywords)
    (h : (Token.tag offset content).role = Role.ofKeyword keyword) :
    cutKeyword content = (keyword.toList, behindFirstWord content) := by
  have hfirst := firstWord_of_role hkeyword h
  subst hfirst
  rw [cutKeyword_eq, String.toList_ofList]

theorem tag_of_steps (h : b.Steps (.tag offset content) b') : b.tag offset content = .ok b' := by
  cases h with
  | loopStart role room header =>
    rw [tag_for (cutKeyword_of_role (by decide) role)]
    simp only [openLoop, checkDepth_of_lt room, header, bind, Except.bind]
    rfl
  | choiceStart role room header =>
    rw [tag_if (cutKeyword_of_role (by decide) role)]
    simp only [openChoice, checkDepth_of_lt room, header, bind, Except.bind]
    rfl
  | branchStart role header =>
    rw [tag, cutKeyword_of_role (show "elif" ∈ tagKeywords by decide) role]
    simp only [String.ofList_toList, header]
    rfl
  | loopEnd role =>
    rw [tag, cutKeyword_of_role (show "endfor" ∈ tagKeywords by decide) role]
    rfl
  | otherwiseStart role =>
    rw [tag, cutKeyword_of_role (show "else" ∈ tagKeywords by decide) role]
    rfl
  | choiceEnd role | otherwiseEnd role =>
    rw [tag, cutKeyword_of_role (show "endif" ∈ tagKeywords by decide) role]
    rfl

/-- **The builder takes a token exactly if it is a step of the grammar.** -/
theorem step_ok_iff {t : Token} : b.step t = .ok b' ↔ b.Steps t b' := by
  constructor
  · intro h
    cases t with
    | text content =>
      cases h
      exact .text content
    | output offset content =>
      rw [step] at h
      cases ho : Output.ofText content with
      | error e => rw [ho] at h; cases h
      | ok o =>
        rw [ho] at h
        cases h
        exact .output ho
    | tag offset content =>
      rw [step] at h
      cases ht : b.tag offset content with
      | error e => rw [ht] at h; cases h
      | ok b'' =>
        rw [ht] at h
        cases h
        exact steps_of_tag ht
  · intro h
    cases t with
    | text => cases h; rfl
    | output =>
      cases h with
      | output ho => rw [step, ho]; rfl
    | tag => rw [step, tag_of_steps h]; rfl

end Builder

/-! ### Reading -/

/-- Tokens without the empty texts. -/
def significant (ts : List Token) : List Token :=
  ts.filter fun t => t != .text []

@[simp]
theorem significant_append (ts us : List Token) :
    significant (ts ++ us) = significant ts ++ significant us :=
  List.filter_append ..

theorem significant_cons {t : Token} (h : t ≠ .text []) (ts : List Token) :
    significant (t :: ts) = t :: significant ts :=
  List.filter_cons_of_pos (bne_iff_ne.mpr h)

namespace Builder

/-- The state after tokens. -/
def readTokens (b : Builder) (ts : List Token) : Except ParseError Builder :=
  (significant ts).foldlM step b

variable {b b' b'' : Builder} {ts us : List Token}

theorem readTokens_append_eq :
    b.readTokens (ts ++ us) = b.readTokens ts >>= fun b' => b'.readTokens us := by
  rw [readTokens, significant_append, List.foldlM_append]
  rfl

theorem readTokens_append_ok_iff :
    b.readTokens (ts ++ us) = .ok b'' ↔
      ∃ b', b.readTokens ts = .ok b' ∧ b'.readTokens us = .ok b'' := by
  rw [readTokens_append_eq]
  exact bind_ok_iff

theorem readTokens_append (h : b.readTokens ts = .ok b') (h' : b'.readTokens us = .ok b'') :
    b.readTokens (ts ++ us) = .ok b'' :=
  readTokens_append_ok_iff.mpr ⟨b', h, h'⟩

theorem readTokens_singleton_ok_iff {t : Token} (ht : t ≠ .text []) :
    b.readTokens [t] = .ok b' ↔ b.Steps t b' := by
  rw [readTokens, significant_cons ht, List.foldlM_cons, bind_ok_iff, ← step_ok_iff]
  exact ⟨fun ⟨_, h, he⟩ => Except.ok.inj he ▸ h, fun h => ⟨b', h, rfl⟩⟩

theorem readTokens_cons {t : Token} (h : b.Steps t b') (h' : b'.readTokens us = .ok b'')
    (ht : t ≠ .text [] := by nofun) : b.readTokens (t :: us) = .ok b'' := by
  rw [readTokens, significant_cons ht, List.foldlM_cons, step_ok_iff.mpr h]
  exact h'

theorem readTokens_singleton {t : Token} (h : b.Steps t b') (ht : t ≠ .text [] := by nofun) :
    b.readTokens [t] = .ok b' :=
  (readTokens_singleton_ok_iff ht).mpr h

theorem readTokens_text (b : Builder) (content : List Char) :
    b.readTokens [.text content] = .ok ⟨b.stack, (textNodes content).reverse ++ b.nodes⟩ := by
  cases content <;> rfl

/-- The state in the last one of branches that started in `b`. -/
def InBranches (b : Builder) (bs : List (Cond × List Node)) (b' : Builder) : Prop :=
  ∃ offset finished c nodes, bs = ((c, nodes.reverse) :: finished).reverse ∧
    b' = ⟨.branch offset finished c b.nodes :: b.stack, nodes⟩

/-- What the builder makes of tokens that grow: it goes on by the nodes, and behind branches it is in
the last one. -/
def Goes (b : Builder) (n : Nat) (ts : List Token) : Growth → Prop
  | .block ns | .item ns =>
    b.stack.length + n ≤ maxNesting → b.readTokens ts = .ok ⟨b.stack, ns.reverse ++ b.nodes⟩
  | .branches bs =>
    b.stack.length + 1 + n ≤ maxNesting → ∃ b', b.readTokens ts = .ok b' ∧ b.InBranches bs b'

end Builder

theorem Token.exists_tag_of_role {t : Token} {r : Role} (h : t.role = r)
    (hr : r ≠ .text ∧ r ≠ .output) : ∃ offset content, t = .tag offset content := by
  cases t with
  | text => exact absurd h.symm hr.1
  | output => exact absurd h.symm hr.2
  | tag offset content => exact ⟨offset, content, rfl⟩

open Builder in
/-- **The builder goes on by what tokens grow into**, in any state with room for the blocks. -/
theorem Grows.goes {n : Nat} {ts : List Token} {g : Growth} (h : Grows n ts g) (b : Builder) :
    b.Goes n ts g := by
  induction h generalizing b with
  | empty => exact fun _ => rfl
  | @snoc n ts us ns ms _ _ ihb ihl =>
    intro hroom
    rw [readTokens_append (ihb b hroom) (ihl _ hroom), List.reverse_append, List.append_assoc]
  | text content => exact fun _ => b.readTokens_text content
  | output ho => exact fun _ => readTokens_singleton (.output ho)
  | @loop n t u ts name source ns start header _ stop ih =>
    obtain ⟨offset, content, rfl⟩ := Token.exists_tag_of_role start (by decide)
    obtain ⟨offset', content', rfl⟩ := Token.exists_tag_of_role stop (by decide)
    intro hroom
    have hbody := ih ⟨.loop offset name source b.nodes :: b.stack, []⟩
      (by rw [List.length_cons]; omega)
    rw [readTokens_append (readTokens_cons (.loopStart start (by omega) header) hbody)
      (readTokens_singleton (.loopEnd stop))]
    simp
  | choice _ stop ih =>
    obtain ⟨offset, content, rfl⟩ := Token.exists_tag_of_role stop (by decide)
    intro hroom
    obtain ⟨_, hread, opened, finished, c, nodes, rfl, rfl⟩ := ih b (by omega)
    exact readTokens_append hread (readTokens_singleton (.choiceEnd stop))
  | choiceElse _ start _ stop ihb iho =>
    obtain ⟨offset, content, rfl⟩ := Token.exists_tag_of_role start (by decide)
    obtain ⟨offset', content', rfl⟩ := Token.exists_tag_of_role stop (by decide)
    intro hroom
    obtain ⟨_, hread, opened, finished, c, nodes, rfl, rfl⟩ := ihb b (by omega)
    have hother := iho ⟨.otherwise opened ((c, nodes.reverse) :: finished).reverse b.nodes ::
      b.stack, []⟩ (by rw [List.length_cons]; omega)
    have helse := readTokens_append hread (readTokens_cons (.otherwiseStart start) hother)
    rw [readTokens_append helse (readTokens_singleton (.otherwiseEnd stop))]
    simp
  | @first n t ts c ns start header _ ih =>
    obtain ⟨offset, content, rfl⟩ := Token.exists_tag_of_role start (by decide)
    intro hroom
    have hbody := ih ⟨.branch offset [] c b.nodes :: b.stack, []⟩ (by rw [List.length_cons]; omega)
    rw [List.append_nil] at hbody
    exact ⟨_, readTokens_cons (.choiceStart start (by omega) header) hbody,
      offset, [], c, ns.reverse, by simp, rfl⟩
  | @next n t ts us bs c ns _ start header _ ihb ih =>
    obtain ⟨offset, content, rfl⟩ := Token.exists_tag_of_role start (by decide)
    intro hroom
    obtain ⟨_, hread, opened, finished, d, nodes, rfl, rfl⟩ := ihb b hroom
    have hbody := ih ⟨.branch opened ((d, nodes.reverse) :: finished) c b.nodes :: b.stack, []⟩
      (by rw [List.length_cons]; omega)
    rw [List.append_nil] at hbody
    exact ⟨_, readTokens_append hread (readTokens_cons (.branchStart start header) hbody),
      opened, _, c, ns.reverse, by simp, rfl⟩

/-! ### What has been read -/

/-- The tokens so far, and the state that they lead to from the nodes `bottom`. What stands in the
innermost block has grown into its nodes, and every open block keeps what has grown around it; behind
the tags of branches every body still to come makes one more branch. -/
inductive Reached (bottom : List Node) : List Token → Builder → Prop where
  | outermost {ts : List Token} {ns : List Node} (h : Grows maxNesting ts (.block ns)) :
      Reached bottom ts ⟨[], ns.reverse ++ bottom⟩
  | inLoop {ts us : List Token} {b : Builder} {n offset : Nat} {t : Token} {name : String}
      {source : Path} {nodes : List Node} (outer : Reached bottom ts b)
      (room : b.stack.length + 1 + n = maxNesting) (start : t.role = .loopStart)
      (header : loopHeader t.header = .ok (name, source)) (body : Grows n us (.block nodes.reverse)) :
      Reached bottom (ts ++ t :: us) ⟨.loop offset name source b.nodes :: b.stack, nodes⟩
  | inBranch {ts vs us : List Token} {b : Builder} {n offset : Nat}
      {finished : List (Cond × List Node)} {c : Cond} {nodes : List Node}
      (outer : Reached bottom ts b) (room : b.stack.length + 1 + n = maxNesting)
      (start : ∀ us ns, Grows n us (.block ns) →
        Grows n (vs ++ us) (.branches ((c, ns) :: finished).reverse))
      (body : Grows n us (.block nodes.reverse)) :
      Reached bottom (ts ++ (vs ++ us)) ⟨.branch offset finished c b.nodes :: b.stack, nodes⟩
  | inOtherwise {ts vs us : List Token} {b : Builder} {n offset : Nat} {t : Token}
      {bs : List (Cond × List Node)} {nodes : List Node} (outer : Reached bottom ts b)
      (room : b.stack.length + 1 + n = maxNesting) (branches : Grows n vs (.branches bs))
      (start : t.role = .otherwiseStart) (body : Grows n us (.block nodes.reverse)) :
      Reached bottom (ts ++ (vs ++ t :: us)) ⟨.otherwise offset bs b.nodes :: b.stack, nodes⟩

namespace Reached

variable {bottom : List Node} {ts vs : List Token} {b b' : Builder}

/-- An item more in the innermost block. -/
theorem extend {ms : List Node} (h : Reached bottom ts b)
    (hitem : ∀ n, b.stack.length + n = maxNesting → Grows n vs (.item ms)) :
    Reached bottom (ts ++ vs) ⟨b.stack, ms.reverse ++ b.nodes⟩ := by
  have hblock : ∀ {n us nodes}, b.stack.length + n = maxNesting → Grows n us (.block nodes.reverse) →
      Grows n (us ++ vs) (.block (ms.reverse ++ nodes).reverse) := by
    intro n us nodes hn hbody
    rw [List.reverse_append, List.reverse_reverse]
    exact .snoc hbody (hitem n hn)
  cases h with
  | outermost h =>
    rw [← List.append_assoc, ← List.reverse_append]
    exact .outermost (.snoc h (hitem _ (Nat.zero_add _)))
  | inLoop outer room start header body =>
    rw [List.append_assoc, List.cons_append]
    exact .inLoop outer room start header (hblock room body)
  | inBranch outer room start body =>
    rw [List.append_assoc, List.append_assoc]
    exact .inBranch outer room start (hblock room body)
  | inOtherwise outer room branches start body =>
    rw [List.append_assoc, List.append_assoc, List.cons_append]
    exact .inOtherwise outer room branches start (hblock room body)

/-- A block that closes is an item of the block around it. -/
theorem close {n : Nat} {ms : List Node} (h : Reached bottom ts b)
    (room : b.stack.length + 1 + n = maxNesting) (hitem : Grows (n + 1) vs (.item ms)) :
    Reached bottom (ts ++ vs) ⟨b.stack, ms.reverse ++ b.nodes⟩ := by
  refine h.extend fun m hm => ?_
  obtain rfl : m = n + 1 := by omega
  exact hitem

/-- The tag of a branch opens its body. -/
theorem branch {n offset : Nat} {finished : List (Cond × List Node)} {c : Cond}
    (h : Reached bottom ts b) (room : b.stack.length + 1 + n = maxNesting)
    (start : ∀ us ns, Grows n us (.block ns) →
      Grows n (vs ++ us) (.branches ((c, ns) :: finished).reverse)) :
    Reached bottom (ts ++ vs) ⟨.branch offset finished c b.nodes :: b.stack, []⟩ := by
  have hbranch : Reached bottom (ts ++ (vs ++ [])) ⟨.branch offset finished c b.nodes :: b.stack, []⟩ :=
    inBranch h room start .empty
  rwa [List.append_nil] at hbranch

/-- **Every step keeps what has been read.** -/
theorem step {t : Token} (h : Reached bottom ts b) (hs : b.Steps t b') (ht : t ≠ .text []) :
    Reached bottom (ts ++ [t]) b' := by
  cases hs with
  | text content =>
    have hnodes : textNodes content = [.text content] := by
      cases content with
      | nil => exact absurd rfl ht
      | cons => rfl
    have hextend := h.extend fun n _ => Grows.text (n := n) content
    rwa [hnodes] at hextend
  | output ho => exact h.extend fun n _ => .output ho
  | loopStart role room header =>
    exact inLoop h (Nat.add_sub_cancel' room) role header .empty
  | choiceStart role room header =>
    exact h.branch (Nat.add_sub_cancel' room) fun us ns hbody => .first role header hbody
  | loopEnd role =>
    cases h with
    | inLoop outer room start header body =>
      rw [List.append_assoc]
      exact outer.close room (.loop start header body role)
  | branchStart role header =>
    cases h with
    | inBranch outer room start body =>
      rw [List.append_assoc]
      refine outer.branch room fun us ns hbody => ?_
      rw [List.append_assoc, List.reverse_cons]
      exact .next (start _ _ body) role header hbody
  | otherwiseStart role =>
    cases h with
    | inBranch outer room start body =>
      rw [List.append_assoc]
      exact inOtherwise outer room (start _ _ body) role .empty
  | choiceEnd role =>
    cases h with
    | inBranch outer room start body =>
      rw [List.append_assoc]
      exact outer.close room (.choice (start _ _ body) role)
  | otherwiseEnd role =>
    cases h with
    | inOtherwise outer room branches start body =>
      rw [List.append_assoc]
      exact outer.close room (.choiceElse branches start body role)

end Reached

/-- **Every state that is reached holds what has been read.** -/
theorem reached_of_readTokens {bottom : List Node} {ts : List Token} {b : Builder}
    (h : Builder.readTokens ⟨[], bottom⟩ ts = .ok b) : Reached bottom ts b := by
  induction ts using List.reverseRecOn generalizing b with
  | nil =>
    cases h
    have hnone : Grows maxNesting [] (.block []) := .empty
    exact .outermost hnone
  | append_singleton ts t ih =>
    obtain ⟨b', hts, hstep⟩ := Builder.readTokens_append_ok_iff.mp h
    by_cases ht : t = .text []
    · subst ht
      cases hstep
      exact (ih hts).extend fun n _ => .text []
    · exact (ih hts).step ((Builder.readTokens_singleton_ok_iff ht).mp hstep) ht

/-- **Tokens are read as nodes exactly if they grow into them.** -/
theorem readTokens_ok_iff {bottom nodes : List Node} {ts : List Token} :
    Builder.readTokens ⟨[], bottom⟩ ts = .ok ⟨[], nodes⟩ ↔
      ∃ ns, nodes = ns.reverse ++ bottom ∧ Grows maxNesting ts (.block ns) := by
  constructor
  · intro h
    cases reached_of_readTokens h with
    | outermost hns => exact ⟨_, rfl, hns⟩
  · rintro ⟨ns, rfl, hns⟩
    exact hns.goes ⟨[], bottom⟩ (Nat.zero_add _).le

/-! ### Templates -/

/-- What trimming leaves of a plain stretch: blanks go at its start where a mark before it trims, and at
its end where one behind it does. -/
def trimmedText (atStart atEnd : Bool) (content : List Char) : List Char :=
  let content := if atStart then Text.trimStart content else content
  if atEnd then Text.trimEnd content else content

/-- The tokens of pieces, with the texts that trimming empties; `trimmed` says whether the piece before
them trims the text after it. -/
def allTokensAfter (trimmed : Bool) : List (Nat × Piece) → List Token
  | [] => []
  | (_, .plain content) :: r =>
    .text (trimmedText trimmed (trimsBefore r) content) :: allTokensAfter false r
  | (offset, .delimited kind inner) :: r =>
    let inner := Inner.ofText inner
    match kind with
    | .output => .output offset inner.content :: allTokensAfter inner.trimAfter r
    | .tag => .tag offset inner.content :: allTokensAfter inner.trimAfter r
    | .comment => allTokensAfter inner.trimAfter r

/-- The tokens of a text's pieces, with the texts that trimming empties. -/
def allTokens (ps : List (Nat × Piece)) : List Token :=
  allTokensAfter false ps

theorem significant_text (content : List Char) (ts : List Token) :
    significant (.text content :: ts) =
      if content.isEmpty then significant ts else .text content :: significant ts := by
  cases content with
  | nil => rfl
  | cons => exact significant_cons (by nofun) _

theorem significant_allTokensAfter (trimmed : Bool) (ps : List (Nat × Piece)) :
    significant (allTokensAfter trimmed ps) = tokensAfter trimmed ps := by
  induction ps generalizing trimmed with
  | nil => rfl
  | cons p r ih =>
    obtain ⟨offset, content | ⟨kind, inner⟩⟩ := p
    · rw [allTokensAfter, significant_text, ih]
      rfl
    · cases kind with
      | output | tag =>
        rw [allTokensAfter, tokensAfter, ← ih]
        exact significant_cons (by simp) _
      | comment =>
        rw [allTokensAfter, tokensAfter]
        exact ih _

theorem Builder.finish_ok_iff {b : Builder} {t : Template} :
    b.finish = .ok t ↔ b = ⟨[], t.nodes.reverse⟩ := by
  obtain ⟨stack, nodes⟩ := b
  cases stack with
  | nil =>
    simp only [finish, Except.ok.injEq, Builder.mk.injEq, true_and]
    constructor
    · rintro rfl
      rw [List.reverse_reverse]
    · rintro rfl
      rw [List.reverse_reverse]
  | cons opened stack => cases opened <;> exact ⟨nofun, nofun⟩

theorem parse_of_pieces {source : String} {ps : List (Nat × Piece)}
    (h : pieces source.toList = .ok ps) :
    parse source = Builder.empty.readTokens (allTokens ps) >>= Builder.finish := by
  rw [parse, tokens, h, Builder.readTokens, allTokens, significant_allTokensAfter]
  rfl

/-- A text whose pieces can be found is a template exactly if its tokens grow into the nodes. -/
theorem parse_ok_iff {source : String} {ps : List (Nat × Piece)} (h : pieces source.toList = .ok ps)
    {t : Template} : parse source = .ok t ↔ Grows maxNesting (allTokens ps) (.block t.nodes) := by
  have hread : parse source = .ok t ↔
      Builder.empty.readTokens (allTokens ps) = .ok ⟨[], t.nodes.reverse⟩ := by
    rw [parse_of_pieces h, bind_ok_iff]
    constructor
    · rintro ⟨b, hb, hfinish⟩
      exact Builder.finish_ok_iff.mp hfinish ▸ hb
    · exact fun hb => ⟨_, hb, Builder.finish_ok_iff.mpr rfl⟩
  rw [hread, Builder.empty, readTokens_ok_iff]
  constructor
  · rintro ⟨ns, hns, hgrows⟩
    rw [List.append_nil, List.reverse_inj] at hns
    exact hns ▸ hgrows
  · exact fun hgrows => ⟨_, (List.append_nil _).symm, hgrows⟩

/-- The tokens of a template grow into its nodes. -/
theorem grows_of_parse {source : String} {t : Template} (h : parse source = .ok t) :
    ∃ ps, pieces source.toList = .ok ps ∧ Grows maxNesting (allTokens ps) (.block t.nodes) := by
  obtain ⟨ts, hts, -⟩ := bind_ok_iff.mp h
  obtain ⟨ps, hps, -⟩ := map_ok_iff.mp hts
  exact ⟨ps, hps, (parse_ok_iff hps).mp h⟩

/-- **Blocks are read by their grammar.** A text whose pieces can be found is a template exactly if the
expressions of all tokens can be read and the grammar generates their roles with blocks nested at most
32 deep. The nodes are then those that the tokens grow into: texts that trimming emptied leave none,
and every body belongs to the condition or the header that it follows. -/
theorem parse_blocks {source : String} {ps : List (Nat × Piece)}
    (h : pieces source.toList = .ok ps) :
    ((∃ t, parse source = .ok t) ↔
      (∀ token ∈ allTokens ps, token.IsReadable) ∧
        Generates .block 32 ((allTokens ps).map Token.role)) ∧
    ∀ t, parse source = .ok t ↔ Grows 32 (allTokens ps) (.block t.nodes) := by
  have hparse : ∀ t, parse source = .ok t ↔ Grows 32 (allTokens ps) (.block t.nodes) :=
    fun t => parse_ok_iff h
  refine ⟨⟨fun ⟨t, ht⟩ => ((hparse t).mp ht).generates, fun ⟨hread, hroles⟩ => ?_⟩, hparse⟩
  obtain ⟨⟨ns⟩ | _ | _, ⟨⟩, hgrows⟩ := hroles.grows rfl hread
  exact ⟨⟨ns⟩, (hparse ⟨ns⟩).mpr hgrows⟩

/-- A choice whose first branch holds a blank that is trimmed away, and whose second one a loop. -/
def sampleBlocks : String :=
  "\x7b% if x -%\x7d \x7b%- elif y %\x7d\x7b% for z in y %\x7da\x7b% endfor %\x7d" ++
    "\x7b% else %\x7db\x7b% endif %\x7d"

/-- The nodes of the sample. -/
def sampleBlockNodes : List Node :=
  [.choice
    [(.operand (.path ⟨"x", "x", []⟩), []),
      (.operand (.path ⟨"y", "y", []⟩), [.loop "z" ⟨"y", "y", []⟩ [.text ['a']]])]
    [.text ['b']]]

theorem parse_blocks_sample : ∃ ps, pieces sampleBlocks.toList = .ok ps ∧
    parse sampleBlocks = .ok ⟨sampleBlockNodes⟩ ∧
    Grows 32 (allTokens ps) (.block sampleBlockNodes) := by
  have hparse : parse sampleBlocks = .ok ⟨sampleBlockNodes⟩ := (parse_append _ _).trans (by with_unfolding_all rfl)
  obtain ⟨ps, h⟩ : ∃ ps, pieces sampleBlocks.toList = .ok ps := ⟨_, by with_unfolding_all rfl⟩
  exact ⟨ps, h, hparse, ((parse_blocks h).2 _).mp hparse⟩

end ExperimentKpi.Template
