/-
# The grammar of conditions

Conditions are alternatives of conjunctions of negations of comparisons; a comparison is a condition in
parentheses, an operand, or two operands with a sign between them. `Derives` is this grammar as a
relation between words and trees, with a bound for how deep `not` and parentheses nest. The reader of
conditions takes words that derive a condition from the head of any row (`Derives.reads`), and what it
takes derives the condition that it gives (`yields_unary`). Since the reader is a function, words derive
one condition at most. Less of a budget changes nothing but that the reader may give up
(`cuts_unary`), so words that nest too deep are refused for just that.

Key definitions: `Path.IsSpelledBy`, `IsOperand`, `Phrase`, `Derives`.
Key theorems: `Path.ofText_ok_iff`, `operand_ok_iff`, `Derives.reads`, `yields_unary`, `cuts_unary`,
`condition_derives`.
-/
import ExperimentKpi.Proofs.Template.Condition

namespace ExperimentKpi.Template

/-! ### Operands -/

theorem eq_dotted_of_splitAt {s root : List Char} {steps : List (List Char)}
    (h : Text.splitAt (· == '.') s = root :: steps) :
    s = dotted root steps ∧ ∀ part ∈ root :: steps, '.' ∉ part := by
  induction steps generalizing s root with
  | nil =>
    obtain ⟨hroot, ⟨-, rfl⟩ | ⟨c, t, -, -, ht⟩⟩ := Text.exists_of_splitAt h
    · refine ⟨by simp [dotted], List.forall_mem_singleton.mpr fun hdot => ?_⟩
      cases hroot _ hdot
    · exact absurd ht (Text.splitAt_ne_nil _ _)
  | cons step steps ih =>
    obtain ⟨hroot, ⟨hnil, -⟩ | ⟨c, t, hc, rfl, ht⟩⟩ := Text.exists_of_splitAt h
    · cases hnil
    · obtain ⟨rfl, hparts⟩ := ih ht
      rw [beq_iff_eq.mp hc]
      refine ⟨by simp [dotted], List.forall_mem_cons.mpr ⟨fun hdot => ?_, hparts⟩⟩
      cases hroot _ hdot

/-- Parts with dots between them spell a path: no part is empty, and the first one is no index. -/
def Path.IsSpelledBy (p : Path) (s : List Char) : Prop :=
  ∃ root steps, s = dotted root steps ∧ (∀ part ∈ root :: steps, part ≠ [] ∧ '.' ∉ part) ∧
    Text.word? root = none ∧ p = ⟨String.ofList s, String.ofList root, steps.map Segment.ofText⟩

/-- A text is read as a path exactly if it spells the path. -/
theorem Path.ofText_ok_iff {s : List Char} {p : Path} : ofText s = .ok p ↔ p.IsSpelledBy s := by
  constructor
  · intro h
    obtain ⟨root, steps, hparts⟩ := List.exists_cons_of_ne_nil (Text.splitAt_ne_nil (· == '.') s)
    obtain ⟨hs, hdots⟩ := eq_dotted_of_splitAt hparts
    simp only [ofText, hparts] at h
    split at h
    · cases h
    · rename_i hempty
      have hne : ∀ part ∈ root :: steps, part ≠ [] := by
        rintro part hp rfl
        exact hempty (List.any_eq_true.mpr ⟨[], hp, rfl⟩)
      cases hroot : Text.word? root with
      | some n => simp [Segment.ofText, hroot] at h
      | none =>
        simp only [List.map_cons, Segment.ofText, hroot] at h
        exact ⟨root, steps, hs, fun part hp => ⟨hne part hp, hdots part hp⟩, hroot,
          (Except.ok.inj h).symm⟩
  · rintro ⟨root, steps, rfl, hparts, hroot, rfl⟩
    have hempty : (root :: steps).any List.isEmpty = false := by
      rw [List.any_eq_false]
      exact fun part hp => by simpa using (hparts part hp).1
    have hkey : Segment.ofText root = .key (String.ofList root) := by rw [Segment.ofText, hroot]
    simp only [ofText, splitAt_dotted fun s hs => (hparts s hs).2, hempty,
      Bool.false_eq_true, if_false, List.map_cons, hkey]

/-- The names of literals, with their values. -/
def literalNames : List (String × Json) :=
  [("true", .bool true), ("True", .bool true), ("false", .bool false), ("False", .bool false),
    ("none", .null), ("None", .null), ("null", .null)]

/-- The words that connect what they stand between, and so are no operands. -/
def connectives : List String :=
  ["and", "or", "not", "in"]

/-- A word is an operand: a text, an integer, the name of a literal, or any other name but a connective
that spells a path. -/
inductive IsOperand : Word → Operand → Prop where
  | text (value : String) : IsOperand (.str value) (.literal (.str value))
  | integer (value : Int) : IsOperand (.int value) (.literal (.int value))
  | literal {name : String} {v : Json} (known : (name, v) ∈ literalNames) :
      IsOperand (.name name) (.literal v)
  | path {name : String} {p : Path} (noLiteral : ∀ v, (name, v) ∉ literalNames)
      (noConnective : name ∉ connectives) (spelled : p.IsSpelledBy name.toList) :
      IsOperand (.name name) (.path p)

theorem literalName?_eq_some_iff {name : String} {v : Json} :
    literalName? name = some v ↔ (name, v) ∈ literalNames := by
  unfold literalName?
  constructor
  · intro h
    split at h
    · rename_i hname
      obtain rfl := Option.some.inj h
      rcases hname with rfl | rfl <;> simp [literalNames]
    · split at h
      · rename_i hname
        obtain rfl := Option.some.inj h
        rcases hname with rfl | rfl <;> simp [literalNames]
      · split at h
        · rename_i hname
          obtain rfl := Option.some.inj h
          rcases hname with rfl | rfl | rfl <;> simp [literalNames]
        · cases h
  · intro h
    simp only [literalNames, List.mem_cons, Prod.mk.injEq, List.not_mem_nil, or_false] at h
    rcases h with ⟨rfl, rfl⟩ | ⟨rfl, rfl⟩ | ⟨rfl, rfl⟩ | ⟨rfl, rfl⟩ | ⟨rfl, rfl⟩ | ⟨rfl, rfl⟩ | ⟨rfl, rfl⟩ <;>
      simp

theorem isKeyword_eq_true_iff {name : String} : isKeyword name = true ↔ name ∈ connectives := by
  simp [isKeyword, connectives, or_assoc]

theorem nameOperand_ok_iff {name : String} {x : Operand} :
    nameOperand name = .ok x ↔ IsOperand (.name name) x := by
  unfold nameOperand
  constructor
  · intro h
    split at h
    · rename_i v hv
      obtain rfl := Except.ok.inj h
      exact .literal (literalName?_eq_some_iff.mp hv)
    · rename_i hnone
      split at h
      · cases h
      · rename_i hkeyword
        obtain ⟨p, hp, rfl⟩ := map_ok_iff.mp h
        refine .path (fun v hv => ?_) (fun hc => hkeyword (isKeyword_eq_true_iff.mpr hc))
          (Path.ofText_ok_iff.mp hp)
        rw [literalName?_eq_some_iff.mpr hv] at hnone
        cases hnone
  · intro h
    cases h with
    | literal known => rw [literalName?_eq_some_iff.mpr known]
    | path noLiteral noConnective spelled =>
      have hnone : literalName? name = none :=
        Option.eq_none_iff_forall_ne_some.mpr fun v hv => noLiteral v (literalName?_eq_some_iff.mp hv)
      rw [hnone]
      dsimp only
      rw [if_neg fun hk => noConnective (isKeyword_eq_true_iff.mp hk), Path.ofText_ok_iff.mpr spelled]
      rfl

/-- An operand is read from a row of words exactly if it is the first of them. -/
theorem operand_ok_iff {ws rest : List Word} {x : Operand} :
    operand ws = .ok (x, rest) ↔ ∃ w, ws = w :: rest ∧ IsOperand w x := by
  constructor
  · intro h
    unfold operand at h
    split at h
    · cases h
      exact ⟨_, rfl, .text _⟩
    · cases h
      exact ⟨_, rfl, .integer _⟩
    · obtain ⟨y, hy, hpair⟩ := map_ok_iff.mp h
      cases hpair
      exact ⟨_, rfl, nameOperand_ok_iff.mp hy⟩
    · cases h
    · cases h
  · rintro ⟨w, rfl, hw⟩
    cases w with
    | str => cases hw; rfl
    | int => cases hw; rfl
    | name name => exact map_ok_iff.mpr ⟨x, nameOperand_ok_iff.mpr hw, rfl⟩
    | eq | ne | openParen | closeParen | bar => cases hw

/-- No operand opens a negation or a parenthesis. -/
theorem IsOperand.ne {w : Word} {x : Operand} (h : IsOperand w x) :
    w ≠ .name "not" ∧ w ≠ .openParen := by
  cases h with
  | text | integer => exact ⟨nofun, nofun⟩
  | literal known =>
    refine ⟨fun he => ?_, nofun⟩
    cases he
    simp [literalNames] at known
  | path _ noConnective =>
    refine ⟨fun he => ?_, nofun⟩
    cases he
    exact noConnective (by decide)

/-! ### The grammar -/

/-- The phrases of conditions, from the weakest binding to the strongest. -/
inductive Phrase where
  | alternatives
  | conjunction
  | negation
  | comparison
deriving DecidableEq, Repr

/-- Words are a phrase with a condition as its tree, in which `not` and parentheses nest at most `n`
deep. Alternatives and conjunctions are combined from the left. -/
inductive Derives : Phrase → Nat → List Word → Cond → Prop where
  | conjunction {n : Nat} {ws : List Word} {c : Cond} (h : Derives .conjunction n ws c) :
      Derives .alternatives n ws c
  | or {n : Nat} {vs ws : List Word} {c d : Cond} (left : Derives .alternatives n vs c)
      (right : Derives .conjunction n ws d) :
      Derives .alternatives n (vs ++ .name "or" :: ws) (.or c d)
  | negation {n : Nat} {ws : List Word} {c : Cond} (h : Derives .negation n ws c) :
      Derives .conjunction n ws c
  | and {n : Nat} {vs ws : List Word} {c d : Cond} (left : Derives .conjunction n vs c)
      (right : Derives .negation n ws d) :
      Derives .conjunction n (vs ++ .name "and" :: ws) (.and c d)
  | comparison {n : Nat} {ws : List Word} {c : Cond} (h : Derives .comparison n ws c) :
      Derives .negation n ws c
  | not {n : Nat} {ws : List Word} {c : Cond} (h : Derives .negation n ws c) :
      Derives .negation (n + 1) (.name "not" :: ws) (.not c)
  | group {n : Nat} {ws : List Word} {c : Cond} (h : Derives .alternatives n ws c) :
      Derives .comparison (n + 1) (.openParen :: ws ++ [.closeParen]) c
  | operand {n : Nat} {w : Word} {x : Operand} (h : IsOperand w x) :
      Derives .comparison n [w] (.operand x)
  | compare {n : Nat} {v w : Word} {x y : Operand} (op : Comparison) (left : IsOperand v x)
      (right : IsOperand w y) : Derives .comparison n (v :: op.words ++ [w]) (.compare x op y)

/-! ### What derives is read -/

section

variable {budget n : Nat} {ws rest : List Word} {c d : Cond}

theorem unary_of_isOperand {w : Word} {x : Operand} (h : IsOperand w x) :
    unary budget (w :: rest) = compared (w :: rest) :=
  unary_of_ne (fun _ he => h.ne.1 (List.cons.inj he).1) (fun _ he => h.ne.2 (List.cons.inj he).1) budget

/-- The words of a phrase at the head of a row are read as the phrase's condition. Where a row of
alternatives or of conjuncts may go on, it is read on from the condition. -/
def Phrase.Reads (budget : Nat) (ws : List Word) (c : Cond) : Phrase → Prop
  | alternatives => ∀ rest, comparison? rest = none → rest.head? ≠ some (.name "and") →
      Template.alternatives (unary budget) (ws ++ rest) =
        chainFrom "or" .or (Template.conjunction budget) c rest
  | conjunction => ∀ rest, comparison? rest = none →
      Template.conjunction budget (ws ++ rest) = chainFrom "and" .and (unary budget) c rest
  | negation | comparison => ∀ rest, comparison? rest = none →
      unary budget (ws ++ rest) = .ok (c, rest)

/-- **Words that derive a condition are read as the condition**, with enough of a budget and whatever
follows that cannot go on with the phrase. -/
theorem Derives.reads {phrase : Phrase} (h : Derives phrase n ws c) (hn : n ≤ budget) :
    phrase.Reads budget ws c := by
  induction h generalizing budget with
  | conjunction _ ih =>
    intro rest hr hand
    have hpart := ih hn rest hr
    rw [chainFrom_of_ne hand] at hpart
    exact chain_of_part hpart
  | or _ _ ihl ihr =>
    intro rest hr hand
    have hright := ihr hn rest hr
    rw [chainFrom_of_ne hand] at hright
    rw [List.append_assoc, List.cons_append, ihl hn _ rfl (by simp),
      chainFrom_name hright (Cond.length_le_append _ _)]
  | negation _ ih => exact fun rest hr => chain_of_part (ih hn rest hr)
  | and _ _ ihl ihr =>
    intro rest hr
    rw [List.append_assoc, List.cons_append, ihl hn _ rfl,
      chainFrom_name (ihr hn rest hr) (Cond.length_le_append _ _)]
  | comparison _ ih => exact ih hn
  | not _ ih =>
    obtain ⟨b, rfl⟩ : ∃ b, budget = b + 1 := ⟨budget - 1, by omega⟩
    intro rest hr
    rw [List.cons_append, unary, ih (Nat.le_of_succ_le_succ hn) rest hr]
    rfl
  | @group m ws c _ ih =>
    obtain ⟨b, rfl⟩ : ∃ b, budget = b + 1 := ⟨budget - 1, by omega⟩
    intro rest hr
    have hinner := ih (Nat.le_of_succ_le_succ hn) (.closeParen :: rest) rfl (by simp)
    rw [chainFrom_of_ne (by simp)] at hinner
    exact unary_grouped hinner
  | @operand _ w x h =>
    intro rest hr
    have hx : Template.operand (w :: rest) = .ok (x, rest) := operand_ok_iff.mpr ⟨w, rfl, h⟩
    rw [List.singleton_append, unary_of_isOperand h]
    simp only [compared, hx, bind, Except.bind, hr]
    rfl
  | @compare _ v w x y op left right =>
    intro rest hr
    have hx : ∀ r, Template.operand (v :: r) = .ok (x, r) := fun r => operand_ok_iff.mpr ⟨v, rfl, left⟩
    have hy : Template.operand (w :: rest) = .ok (y, rest) := operand_ok_iff.mpr ⟨w, rfl, right⟩
    rw [List.append_assoc, List.singleton_append, List.cons_append, unary_of_isOperand left]
    simp only [compared, hx, bind, Except.bind, comparison?_words, hy]
    rfl

theorem Derives.alternatives_eq (h : Derives .alternatives n ws c) (hn : n ≤ budget) :
    alternatives (unary budget) ws = .ok (c, []) := by
  have hread := h.reads hn [] rfl (by simp)
  rwa [List.append_nil, chainFrom_of_ne (by simp)] at hread

/-- **Words derive one condition at most**, however deep it nests. -/
theorem Derives.unique {m : Nat} (h : Derives .alternatives m ws c) (h' : Derives .alternatives n ws d) :
    c = d := by
  have hc := h.alternatives_eq (Nat.le_max_left m n)
  rw [h'.alternatives_eq (Nat.le_max_right m n)] at hc
  cases hc
  rfl

/-! ### What is read derives -/

/-- What a reader takes from the head of a row has a property, together with the condition that it is
read as. -/
def Reader.Yields (part : Reader Cond) (P : List Word → Cond → Prop) : Prop :=
  ∀ ws c rest, part ws = .ok (c, rest) → ∃ vs, ws = vs ++ rest ∧ P vs c

section

variable {word : String} {combine : Cond → Cond → Cond} {part : Reader Cond}
  {P Q : List Word → Cond → Prop}

theorem yields_chainFrom (hpart : Reader.Yields part P)
    (hmore : ∀ vs c us d, Q vs c → P us d → Q (vs ++ .name word :: us) (combine c d))
    {us : List Word} {left : Cond} (hleft : Q us left)
    (h : chainFrom word combine part left ws = .ok (c, rest)) :
    ∃ vs, ws = vs ++ rest ∧ Q (us ++ vs) c := by
  fun_induction chainFrom word combine part left ws generalizing us with
  | case1 left r right rest' hr hlen ih =>
    obtain ⟨vs, rfl, hp⟩ := hpart _ _ _ hr
    obtain ⟨vs', rfl, hq⟩ := ih (hmore _ _ _ _ hleft hp) h
    exact ⟨.name word :: vs ++ vs', by simp, by simpa using hq⟩
  | case2 left r right rest' hr hlen =>
    -- A part never leaves more words than it was given.
    obtain ⟨vs, rfl, -⟩ := hpart _ _ _ hr
    exact absurd (Cond.length_le_append vs rest') hlen
  | case3 => cases h
  | case4 => cases h; exact ⟨[], rfl, by simpa using hleft⟩
  | case5 => cases h; exact ⟨[], rfl, by simpa using hleft⟩

/-- A chain takes one part, and then more with its word before each. -/
theorem yields_chain (hpart : Reader.Yields part P) (hone : ∀ vs c, P vs c → Q vs c)
    (hmore : ∀ vs c us d, Q vs c → P us d → Q (vs ++ .name word :: us) (combine c d)) :
    Reader.Yields (chain word combine part) Q := by
  intro ws c rest h
  unfold chain at h
  cases hfirst : part ws with
  | error e => simp [hfirst, bind, Except.bind] at h
  | ok first =>
    obtain ⟨left, r⟩ := first
    simp only [hfirst, bind, Except.bind] at h
    obtain ⟨us, rfl, hp⟩ := hpart _ _ _ hfirst
    obtain ⟨vs, rfl, hq⟩ := yields_chainFrom hpart hmore (hone _ _ hp) h
    exact ⟨us ++ vs, by simp, hq⟩

end

theorem comparison?_eq_some {op : Comparison} (h : comparison? ws = some (op, rest)) :
    ws = op.words ++ rest := by
  unfold comparison? at h
  split at h <;> cases h <;> rfl

/-- A comparison that is read consists of its operands and its sign. -/
theorem yields_compared (n : Nat) : Reader.Yields compared (Derives .comparison n) := by
  intro ws c rest h
  unfold compared at h
  cases hleft : operand ws with
  | error e => simp [hleft, bind, Except.bind] at h
  | ok first =>
    obtain ⟨x, r⟩ := first
    simp only [hleft, bind, Except.bind] at h
    obtain ⟨v, rfl, hv⟩ := operand_ok_iff.mp hleft
    split at h
    · rename_i op r' hop
      obtain rfl := comparison?_eq_some hop
      cases hright : operand r' with
      | error e => simp [hright] at h
      | ok second =>
        obtain ⟨y, r''⟩ := second
        simp only [hright] at h
        obtain ⟨w, rfl, hw⟩ := operand_ok_iff.mp hright
        cases h
        exact ⟨v :: op.words ++ [w], by simp, .compare op hv hw⟩
    · cases h
      exact ⟨[v], rfl, .operand hv⟩

theorem yields_conjunction (h : Reader.Yields (unary budget) (Derives .negation budget)) :
    Reader.Yields (conjunction budget) (Derives .conjunction budget) :=
  yields_chain h (fun _ _ => .negation) fun _ _ _ _ => .and

theorem yields_alternatives (h : Reader.Yields (unary budget) (Derives .negation budget)) :
    Reader.Yields (alternatives (unary budget)) (Derives .alternatives budget) :=
  yields_chain (yields_conjunction h) (fun _ _ => .conjunction) fun _ _ _ _ => .or

theorem unary_group_ok_iff {r : List Word} :
    unary (budget + 1) (.openParen :: r) = .ok (c, rest) ↔
      alternatives (unary budget) r = .ok (c, .closeParen :: rest) := by
  rw [unary]
  cases alternatives (unary budget) r with
  | error e =>
    simp only [bind, Except.bind, reduceCtorEq]
  | ok inner =>
    obtain ⟨d, vs⟩ := inner
    simp only [bind, Except.bind, Except.ok.injEq, Prod.mk.injEq]
    split
    · rename_i heq
      cases heq
      simp
    · rename_i hne
      refine iff_of_false (fun h => by cases h) ?_
      rintro ⟨rfl, rfl⟩
      exact hne _ _ rfl

/-- Words start with a negation, with a parenthesis, or with neither. -/
theorem opening_cases (ws : List Word) :
    (∃ r, ws = .name "not" :: r) ∨ (∃ r, ws = .openParen :: r) ∨
      (∀ r, ws ≠ .name "not" :: r) ∧ ∀ r, ws ≠ .openParen :: r := by
  by_cases hnot : ∃ r, ws = .name "not" :: r
  · exact .inl hnot
  · by_cases hparen : ∃ r, ws = .openParen :: r
    · exact .inr (.inl hparen)
    · exact .inr (.inr ⟨fun r he => hnot ⟨r, he⟩, fun r he => hparen ⟨r, he⟩⟩)

/-- What opens neither a negation nor a parenthesis is read as a comparison, whatever the budget. -/
theorem yields_unary_of_ne (hnot : ∀ r, ws ≠ .name "not" :: r) (hparen : ∀ r, ws ≠ .openParen :: r)
    (h : unary budget ws = .ok (c, rest)) : ∃ vs, ws = vs ++ rest ∧ Derives .negation n vs c := by
  rw [unary_of_ne hnot hparen] at h
  obtain ⟨vs, hvs, hd⟩ := yields_compared n _ _ _ h
  exact ⟨vs, hvs, .comparison hd⟩

/-- **What is read derives the condition that it is read as.** -/
theorem yields_unary (budget : Nat) : Reader.Yields (unary budget) (Derives .negation budget) := by
  induction budget with
  | zero =>
    intro ws c rest h
    rcases opening_cases ws with ⟨r, rfl⟩ | ⟨r, rfl⟩ | ⟨hnot, hparen⟩
    · cases h
    · cases h
    · exact yields_unary_of_ne hnot hparen h
  | succ budget ih =>
    intro ws c rest h
    rcases opening_cases ws with ⟨r, rfl⟩ | ⟨r, rfl⟩ | ⟨hnot, hparen⟩
    · obtain ⟨⟨inner, r'⟩, hinner, hpair⟩ := map_ok_iff.mp h
      cases hpair
      obtain ⟨vs, rfl, hd⟩ := ih _ _ _ hinner
      exact ⟨.name "not" :: vs, rfl, .not hd⟩
    · obtain ⟨vs, rfl, hd⟩ := yields_alternatives ih _ _ _ (unary_group_ok_iff.mp h)
      exact ⟨.openParen :: vs ++ [Word.closeParen], by simp, .comparison (.group hd)⟩
    · exact yields_unary_of_ne hnot hparen h

end

/-! ### What nests too deep -/

/-- A reader reads what another one does, or gives up because it is too deep. -/
def Reader.Cuts (part whole : Reader Cond) : Prop :=
  ∀ ws, part ws = .error .tooDeep ∨ part ws = whole ws

section

variable {word : String} {combine : Cond → Cond → Cond} {part whole : Reader Cond}

theorem cuts_chainFrom (h : Reader.Cuts part whole) (left : Cond) (ws : List Word) :
    chainFrom word combine part left ws = .error .tooDeep ∨
      chainFrom word combine part left ws = chainFrom word combine whole left ws := by
  fun_induction chainFrom word combine whole left ws with
  | case1 left r right rest hr hlen ih =>
    rw [chainFrom.eq_def]
    rcases h r with hdeep | hsame
    · exact .inl (by simp [hdeep])
    · simpa [hsame, hr, hlen] using ih
  | case2 left r right rest hr hlen =>
    rw [chainFrom.eq_def]
    rcases h r with hdeep | hsame
    · exact .inl (by simp [hdeep])
    · exact .inr (by simp [hsame, hr, hlen])
  | case3 left r e hr =>
    rw [chainFrom.eq_def]
    rcases h r with hdeep | hsame
    · exact .inl (by simp [hdeep])
    · exact .inr (by simp [hsame, hr])
  | case4 left w r hne => exact .inr (by rw [chainFrom.eq_def]; simp [hne])
  | case5 left ws hname =>
    have hne : ws.head? ≠ some (.name word) := by
      intro hhead
      obtain ⟨r, rfl⟩ := List.head?_eq_some_iff.mp hhead
      exact hname _ _ rfl
    exact .inr (chainFrom_of_ne hne)

theorem cuts_chain (h : Reader.Cuts part whole) :
    Reader.Cuts (chain word combine part) (chain word combine whole) := by
  intro ws
  unfold chain
  rcases h ws with hdeep | hsame
  · exact .inl (by rw [hdeep]; rfl)
  · rw [hsame]
    cases whole ws with
    | error e => exact .inr rfl
    | ok first => exact cuts_chainFrom h first.1 first.2

end

/-- **With less of a budget the same is read, or it is too deep.** -/
theorem cuts_unary {budget budget' : Nat} (h : budget ≤ budget') :
    Reader.Cuts (unary budget) (unary budget') := by
  induction budget generalizing budget' with
  | zero =>
    intro ws
    rcases opening_cases ws with ⟨r, rfl⟩ | ⟨r, rfl⟩ | ⟨hnot, hparen⟩
    · exact .inl rfl
    · exact .inl rfl
    · exact .inr (by rw [unary_of_ne hnot hparen, unary_of_ne hnot hparen])
  | succ budget ih =>
    obtain ⟨b, rfl⟩ : ∃ b, budget' = b + 1 := ⟨budget' - 1, by omega⟩
    have hcuts : Reader.Cuts (unary budget) (unary b) := ih (Nat.le_of_succ_le_succ h)
    intro ws
    rcases opening_cases ws with ⟨r, rfl⟩ | ⟨r, rfl⟩ | ⟨hnot, hparen⟩
    · rw [unary, unary]
      rcases hcuts r with hdeep | hsame
      · exact .inl (by rw [hdeep]; rfl)
      · exact .inr (by rw [hsame])
    · rw [unary, unary]
      rcases cuts_chain (cuts_chain hcuts) r with hdeep | hsame
      · exact .inl (by rw [alternatives, hdeep]; rfl)
      · exact .inr (by rw [alternatives, hsame, alternatives])
    · exact .inr (by rw [unary_of_ne hnot hparen, unary_of_ne hnot hparen])

/-! ### Conditions -/

/-- A condition is what all words are read as. -/
theorem condition_ok_iff {ws : List Word} {c : Cond} :
    condition ws = .ok c ↔ alternatives (unary maxNesting) ws = .ok (c, []) := by
  unfold condition
  cases alternatives (unary maxNesting) ws with
  | error e => exact ⟨nofun, nofun⟩
  | ok p =>
    obtain ⟨d, rest⟩ := p
    cases rest <;> simp [bind, Except.bind, finish]

/-- **Conditions are read by their grammar.** Words are read as a condition exactly if they derive it
with `not` and parentheses nested at most 32 deep. No words derive two conditions, and words that only
derive one with deeper nesting are refused as too deep. -/
theorem condition_derives (ws : List Word) :
    (∀ c, condition ws = .ok c ↔ Derives .alternatives 32 ws c) ∧
      (∀ m n c d, Derives .alternatives m ws c → Derives .alternatives n ws d → c = d) ∧
      ∀ n c, Derives .alternatives n ws c → (∀ d, ¬ Derives .alternatives 32 ws d) →
        condition ws = .error .tooDeep := by
  have hiff : ∀ c, condition ws = .ok c ↔ Derives .alternatives 32 ws c := by
    intro c
    rw [condition_ok_iff]
    constructor
    · intro h
      obtain ⟨vs, rfl, hd⟩ := yields_alternatives (yields_unary maxNesting) _ _ _ h
      rwa [List.append_nil]
    · exact fun h => h.alternatives_eq (Nat.le_refl _)
  refine ⟨hiff, fun m n c d h h' => h.unique h', fun n c h hdeep => ?_⟩
  have hwhole := h.alternatives_eq (Nat.le_max_left n maxNesting)
  rcases cuts_chain (cuts_chain (cuts_unary (Nat.le_max_right n maxNesting))) ws with hcut | hsame
  · rw [condition, alternatives, hcut]
    rfl
  · exact absurd ((hiff c).mp (condition_ok_iff.mpr (hsame.trans hwhole))) (hdeep c)

/-- One `not` more than the budget allows. -/
example : condition (List.replicate 33 (Word.name "not") ++ [Word.name "a"]) = .error .tooDeep := rfl

end ExperimentKpi.Template
