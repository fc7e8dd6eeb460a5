/-
# The forms of tags

A documented tag is the header of a loop over a path with a name in letters, digits and underscores, a
branch with a condition, or one of the words `else`, `endif` and `endfor` alone. The parser takes more:
whatever stands behind these three words, any name of a loop without a dot, and any path of a loop that
dots cut into parts. What it takes is documented exactly if nothing stands behind the three words and
if the names and paths of loops are spelled with the characters of names (`parse_tagForms`); a
condition behind `else` is not (`not_isDocumented_conditionedElse`).

Key definitions: `IsDocumented`, `IsTaken`, `IsStrict`.
Key theorems: `words_eq_name_iff`, `isTaken_of_parse`, `IsTaken.isDocumented_iff`, `parse_tagForms`.
-/
import ExperimentKpi.Proofs.Template.Blocks
import ExperimentKpi.Proofs.Template.Grammar

namespace ExperimentKpi.Template

open Text (isBlank isDigit)

/-! ### Forms -/

/-- The words of tags that mean something of their own. -/
def loneKeywords : List String :=
  ["else", "endif", "endfor"]

/-- The words of tags behind which a condition stands. -/
def conditionKeywords : List String :=
  ["if", "elif"]

/-- The tags of the documentation, without the blanks around them. The name of a loop is a word, and its
path is one that expressions read as a single name too. -/
inductive IsDocumented : List Char → Prop where
  | loop {content name path : List Char} {p : Path} (keyword : firstWord content = "for".toList)
      (header : Text.words (behindFirstWord content) = [name, ['i', 'n'], path])
      (isName : IsNameWord name) (isPath : p.IsSpelledBy path)
      (isRead : words path = .ok [.name (String.ofList path)]) : IsDocumented content
  | condition {content : List Char} {keyword : String} {c : Cond}
      (known : keyword ∈ conditionKeywords) (isFirst : firstWord content = keyword.toList)
      (isCondition : Cond.ofText (behindFirstWord content) = .ok c) : IsDocumented content
  | alone {keyword : String} (known : keyword ∈ loneKeywords) : IsDocumented keyword.toList

/-- The tags that the parser takes. -/
inductive IsTaken : List Char → Prop where
  | loop {content name path : List Char} {p : Path} (keyword : firstWord content = "for".toList)
      (header : Text.words (behindFirstWord content) = [name, ['i', 'n'], path])
      (isName : '.' ∉ name ∧ name ≠ "loop".toList) (isPath : p.IsSpelledBy path) : IsTaken content
  | condition {content : List Char} {keyword : String} {c : Cond}
      (known : keyword ∈ conditionKeywords) (isFirst : firstWord content = keyword.toList)
      (isCondition : Cond.ofText (behindFirstWord content) = .ok c) : IsTaken content
  | closing {content : List Char} {keyword : String} (known : keyword ∈ loneKeywords)
      (isFirst : firstWord content = keyword.toList) : IsTaken content

/-- Nothing stands behind a word that means something of its own, and the names and paths of loops have
the characters of names. -/
structure IsStrict (content : List Char) : Prop where
  alone : ∀ keyword ∈ loneKeywords, firstWord content = keyword.toList → content = keyword.toList
  loop : ∀ name path, firstWord content = "for".toList →
    Text.words (behindFirstWord content) = [name, ['i', 'n'], path] →
    IsNameWord name ∧ (Word.name (String.ofList path)).IsSpellable

/-! ### Names in expressions -/

/-- A name that is read from the head of a text consists of characters of names and starts as names
do. -/
theorem isSpellable_of_nextWord {c : Char} {r rest : List Char} {s : String}
    (h : nextWord c r = .ok (.name s, rest)) :
    (Word.name s).IsSpellable ∧ s.toList ++ rest = c :: r := by
  unfold nextWord at h
  repeat' split at h
  all_goals try cases h
  · unfold integerWord at h
    simp only at h
    split at h <;> cases h
  · rename_i hinteger hstart
    have hminus : c ≠ '-' := by
      rintro rfl
      exact absurd hstart (by decide)
    have hdigit : isDigit c = false := by
      rwa [startsInteger_of_ne hminus, Bool.not_eq_true] at hinteger
    refine ⟨⟨⟨c, by simp, hstart, hdigit⟩, fun d hd => ?_⟩, ?_⟩
    · rw [String.toList_ofList] at hd
      rcases List.mem_cons.mp hd with rfl | hd
      · exact isNameChar_of_isNameStart hstart
      · exact List.mem_takeWhile_imp hd
    · rw [String.toList_ofList, List.cons_append, List.takeWhile_append_dropWhile]

/-- A text without blanks is read as one name exactly if it is spelled as one. -/
theorem words_eq_name_iff {s : List Char} (hs : ∀ c ∈ s, isBlank c = false) :
    words s = .ok [.name (String.ofList s)] ↔ (Word.name (String.ofList s)).IsSpellable := by
  constructor
  · intro h
    cases s with
    | nil => rw [words.eq_def] at h; cases h
    | cons c r =>
      rw [words.eq_def] at h
      simp only [hs c List.mem_cons_self, Bool.false_eq_true, if_false] at h
      split at h
      · rename_i w rest hnext
        obtain ⟨ws, -, hws⟩ := map_ok_iff.mp h
        obtain ⟨rfl, -⟩ := List.cons.inj hws
        exact (isSpellable_of_nextWord hnext).1
      · cases h
  · intro h
    have hread := words_spell (List.forall_mem_singleton.mpr h)
    rwa [spell, Word.text, String.toList_ofList] at hread

/-- The words of a text hold no blanks. -/
theorem isBlank_of_mem_words {s w : List Char} (h : w ∈ Text.words s) :
    ∀ c ∈ w, isBlank c = false := by
  have hparts : ∀ s : List Char, ∀ w ∈ Text.splitAt isBlank s, ∀ c ∈ w, isBlank c = false := by
    intro s
    induction hn : (Text.splitAt isBlank s) generalizing s with
    | nil => exact nofun
    | cons v vs ih =>
      obtain ⟨hv, ⟨rfl, -⟩ | ⟨c, t, -, -, ht⟩⟩ := Text.exists_of_splitAt hn
      · exact List.forall_mem_singleton.mpr hv
      · exact List.forall_mem_cons.mpr ⟨hv, ih t ht⟩
  exact hparts s w (List.mem_of_mem_filter h)

/-- The path of a loop holds no blanks. -/
theorem isBlank_of_mem_path {s name path : List Char}
    (h : Text.words s = [name, ['i', 'n'], path]) : ∀ c ∈ path, isBlank c = false :=
  isBlank_of_mem_words (s := s) (by simp [h])

/-! ### Tags that are taken -/

theorem loopHeader_ok {rest : List Char} {name : String} {source : Path}
    (h : loopHeader rest = .ok (name, source)) :
    ∃ path, Text.words rest = [name.toList, ['i', 'n'], path] ∧
      ('.' ∉ name.toList ∧ name.toList ≠ "loop".toList) ∧ source.IsSpelledBy path := by
  unfold loopHeader at h
  split at h
  · rename_i word path hwords
    split at h
    · cases h
    · rename_i hname
      obtain ⟨p, hp, hpair⟩ := map_ok_iff.mp h
      cases hpair
      rw [not_or] at hname
      refine ⟨path, by rw [hwords, String.toList_ofList], ?_, Path.ofText_ok_iff.mp hp⟩
      rw [String.toList_ofList]
      exact ⟨by simpa using hname.1, hname.2⟩
  · cases h

/-- No token of a block has an unknown role. -/
theorem Generates.unknown_not_mem {phrase : BlockPhrase} {n : Nat} {rs : List Role}
    (h : Generates phrase n rs) : Role.unknown ∉ rs := by
  induction h <;> simp_all

/-- A tag with a role whose expressions can be read is one that is taken. -/
theorem isTaken_of_isReadable {offset : Nat} {content : List Char}
    (hrole : (Token.tag offset content).role ≠ .unknown)
    (h : (Token.tag offset content).IsReadable) : IsTaken content := by
  have hmem := Role.mem_tagRoles (r := (Token.tag offset content).role) rfl hrole
  have hfirst : firstWord content = (String.ofList (firstWord content)).toList :=
    (String.toList_ofList).symm
  simp only [tagRoles, List.mem_cons, Prod.mk.injEq, List.not_mem_nil, or_false] at hmem
  rcases hmem with ⟨hk, hr⟩ | ⟨hk, -⟩ | ⟨hk, hr⟩ | ⟨hk, hr⟩ | ⟨hk, -⟩ | ⟨hk, -⟩ <;>
    rw [hk] at hfirst
  · obtain ⟨⟨name, source⟩, hheader⟩ := h.loop hr
    obtain ⟨path, hwords, hname, hpath⟩ := loopHeader_ok hheader
    exact .loop hfirst hwords hname hpath
  · exact .closing (by decide) hfirst
  · obtain ⟨c, hc⟩ := h.condition (.inl hr)
    exact .condition (by decide) hfirst hc
  · obtain ⟨c, hc⟩ := h.condition (.inr hr)
    exact .condition (by decide) hfirst hc
  · exact .closing (by decide) hfirst
  · exact .closing (by decide) hfirst

/-- **Every tag of a template is one that the parser takes.** -/
theorem isTaken_of_parse {source : String} {t : Template} {ps : List (Nat × Piece)} {offset : Nat}
    {content : List Char} (h : parse source = .ok t) (hps : pieces source.toList = .ok ps)
    (htag : .tag offset content ∈ allTokens ps) : IsTaken content := by
  obtain ⟨hread, hroles⟩ := ((parse_ok_iff hps).mp h).generates
  have hrole : (Token.tag offset content).role ≠ .unknown := fun he =>
    hroles.unknown_not_mem (he ▸ List.mem_map_of_mem htag)
  exact isTaken_of_isReadable hrole (hread _ htag)

/-! ### Tags that are documented -/

theorem firstWord_loneKeyword {keyword : String} (h : keyword ∈ loneKeywords) :
    firstWord keyword.toList = keyword.toList := by
  simp only [loneKeywords, List.mem_cons, List.not_mem_nil, or_false] at h
  rcases h with rfl | rfl | rfl <;> decide

/-- The three kinds of first words exclude each other. -/
theorem keywords_disjoint :
    "for" ∉ loneKeywords ∧ "for" ∉ conditionKeywords ∧
      ∀ keyword ∈ conditionKeywords, keyword ∉ loneKeywords := by
  decide

theorem eq_of_firstWord {content : List Char} {keyword keyword' : String}
    (h : firstWord content = keyword.toList) (h' : firstWord content = keyword'.toList) :
    keyword = keyword' :=
  String.toList_inj.mp (h.symm.trans h')

theorem IsDocumented.isStrict {content : List Char} (h : IsDocumented content) :
    IsStrict content := by
  obtain ⟨hloneFor, hconditionFor, hlone⟩ := keywords_disjoint
  cases h with
  | @loop _ name path p keyword header isName isPath isRead =>
    refine ⟨fun word hword hfirst => ?_, fun name' path' _ header' => ?_⟩
    · exact absurd (eq_of_firstWord keyword hfirst ▸ hword) hloneFor
    · have hblank := isBlank_of_mem_path header
      rw [header] at header'
      cases header'
      exact ⟨isName, (words_eq_name_iff hblank).mp isRead⟩
  | condition known isFirst isCondition =>
    refine ⟨fun word hword hfirst => ?_, fun _ _ hfirst _ => ?_⟩
    · exact absurd (eq_of_firstWord hfirst isFirst ▸ hword) (hlone _ known)
    · exact absurd (eq_of_firstWord hfirst isFirst ▸ known) hconditionFor
  | alone known =>
    have hfirst := firstWord_loneKeyword known
    refine ⟨fun word _ hword => ?_, fun _ _ hword _ => ?_⟩
    · rw [eq_of_firstWord hfirst hword]
    · exact absurd (eq_of_firstWord hword hfirst ▸ known) hloneFor

/-- **A tag that is taken is documented exactly if it is strict.** -/
theorem IsTaken.isDocumented_iff {content : List Char} (h : IsTaken content) :
    IsDocumented content ↔ IsStrict content := by
  refine ⟨IsDocumented.isStrict, fun hstrict => ?_⟩
  cases h with
  | loop keyword header isName isPath =>
    obtain ⟨hname, hpath⟩ := hstrict.loop _ _ keyword header
    exact .loop keyword header hname isPath
      ((words_eq_name_iff (isBlank_of_mem_path header)).mpr hpath)
  | condition known isFirst isCondition => exact .condition known isFirst isCondition
  | closing known isFirst =>
    rw [hstrict.alone _ known isFirst]
    exact .alone known

/-- **The tags of templates.** Every tag of a text that is a template has one of the forms that the
parser takes, and it is documented exactly if nothing stands behind `else`, `endif` or `endfor` and the
names and paths of loops are spelled with the characters of names. -/
theorem parse_tagForms {source : String} {t : Template} {ps : List (Nat × Piece)} {offset : Nat}
    {content : List Char} (h : parse source = .ok t) (hps : pieces source.toList = .ok ps)
    (htag : .tag offset content ∈ allTokens ps) :
    IsTaken content ∧ (IsDocumented content ↔ IsStrict content) :=
  have htaken := isTaken_of_parse h hps htag
  ⟨htaken, htaken.isDocumented_iff⟩

/-- A loop whose name no expression can read. -/
def unreadableLoop : String :=
  "\x7b% for x! in xs %\x7d\x7b% endfor %\x7d"

theorem parse_tagForms_unreadableLoop : ∃ t ps, parse unreadableLoop = .ok t ∧
    pieces unreadableLoop.toList = .ok ps ∧ .tag 0 "for x! in xs".toList ∈ allTokens ps ∧
    IsTaken "for x! in xs".toList ∧ ¬ IsDocumented "for x! in xs".toList := by
  obtain ⟨t, h⟩ : ∃ t, parse unreadableLoop = .ok t :=
    ⟨_, (parse_ofList _).trans (by with_unfolding_all rfl)⟩
  obtain ⟨ps, hps, htag⟩ : ∃ ps, pieces unreadableLoop.toList = .ok ps ∧
    .tag 0 "for x! in xs".toList ∈ allTokens ps :=
    ⟨[(0, .delimited .tag " for x! in xs ".toList), (18, .delimited .tag " endfor ".toList)],
      by decide +kernel, by decide⟩
  obtain ⟨htaken, hdocumented⟩ := parse_tagForms h hps htag
  refine ⟨t, ps, h, hps, htag, htaken, fun hd => ?_⟩
  have hstrict := (hdocumented.mp hd).loop "x!".toList "xs".toList (by decide) (by decide)
  exact absurd hstrict.1 (by decide)

/-- A choice with a condition behind `else`. -/
def conditionedElse : String :=
  "\x7b% if a %\x7dx\x7b% else b %\x7dy\x7b% endif %\x7d"

/-- A condition behind `else` is taken although it is not documented. -/
theorem not_isDocumented_conditionedElse : ∃ t ps, parse conditionedElse = .ok t ∧
    pieces conditionedElse.toList = .ok ps ∧ .tag 11 "else b".toList ∈ allTokens ps ∧
    ¬ IsDocumented "else b".toList := by
  obtain ⟨t, h⟩ : ∃ t, parse conditionedElse = .ok t :=
    ⟨_, (parse_ofList _).trans (by with_unfolding_all rfl)⟩
  obtain ⟨ps, hps, htag⟩ : ∃ ps, pieces conditionedElse.toList = .ok ps ∧
    .tag 11 "else b".toList ∈ allTokens ps :=
    ⟨[(0, .delimited .tag " if a ".toList), (10, .plain ['x']),
      (11, .delimited .tag " else b ".toList), (23, .plain ['y']),
      (24, .delimited .tag " endif ".toList)], by decide +kernel, by decide⟩
  refine ⟨t, ps, h, hps, htag, fun hd => ?_⟩
  exact absurd (hd.isStrict.alone "else" (by decide) (by decide)) (by decide)

end ExperimentKpi.Template
