/-
# Texts between two quotes

A text between two quotes becomes the body of a literal if every quote in it is taken by a backslash
and no backslash is left over that would take the second quote (`staysOpen`). Sanitizing decodes the
texts before, between and behind two quotes on their own and changes nothing but backslashes in them,
so that the first quote opens a literal where it did, and the second closes it exactly if the decoded
text stays open (`sanitize_quoted`). Nothing is done to quotes in the text itself: where the decoded
text does not stay open, the literal ends too early or too late.

Key definitions: `Query.ScanState`, `Query.scan`, `Query.staysOpen`.
Key theorems: `Query.closing?_iff_staysOpen`, `Query.literals_append_of_scan`,
`Query.sanitize_quoted`.
-/
import ExperimentKpi.Proofs.Query.Padding

namespace ExperimentKpi.Query

/-- Where a scanner of query text stands: outside of literals, inside of one, or there behind a
backslash. -/
inductive ScanState where
  | outside
  | inside
  | taking
deriving DecidableEq, Repr

/-- The scanner's state behind one more character. -/
def ScanState.next : ScanState → Char → ScanState
  | outside, c => if c = '\'' then inside else outside
  | inside, c => if c = '\'' then outside else if c = '\\' then taking else inside
  | taking, _ => inside

/-- The scanner's state behind a text. -/
def scan (state : ScanState) (s : List Char) : ScanState :=
  s.foldl ScanState.next state

/-- Behind an opening quote the text leaves the literal open and takes nothing of what follows; the
flag says whether a backslash takes the first character. -/
def staysOpen : Bool → List Char → Bool
  | taken, [] => !taken
  | taken, c :: r => (taken || c != '\'') && staysOpen (!taken && c == '\\') r

theorem scan_cons (state : ScanState) (c : Char) (s : List Char) :
    scan state (c :: s) = scan (state.next c) s := rfl

theorem scan_append (state : ScanState) (s t : List Char) :
    scan state (s ++ t) = scan (scan state s) t :=
  List.foldl_append

/-! ### Literals between quotes -/

variable {s s' v rest : List Char}

/-- A text between two quotes is the body of a literal exactly if it stays open. -/
theorem closing?_iff_staysOpen :
    closing? (v ++ '\'' :: rest) = some (v, rest) ↔ staysOpen false v = true := by
  have hmap {p r b : List Char} :
      ((closing? r).map fun q => (p ++ q.1, q.2)) = some (p ++ b, rest) ↔
        closing? r = some (b, rest) := by
    cases closing? r with
    | none => simp
    | some q => simp [Prod.ext_iff]
  fun_induction closing? v with
  | case1 => exact ⟨fun _ => rfl, fun _ => rfl⟩
  | case2 r => simp [closing?, staysOpen]
  | case3 c r ih =>
    have hopen : staysOpen false ('\\' :: c :: r) = staysOpen false r := by simp [staysOpen]
    rw [hopen]
    exact (hmap (p := ['\\', c])).trans ih
  | case4 c r hq hb ih =>
    have hc : c ≠ '\'' := by simpa using hq
    by_cases hback : c = '\\'
    · subst hback
      cases r with
      | cons d r => exact absurd rfl (hb d r rfl)
      | nil =>
        rw [List.cons_append, List.nil_append, closing?_escaped]
        cases closing? rest <;> simp [staysOpen]
    · have hquote : (c != '\'') = true := bne_iff_ne.mpr hc
      have hflag : (c == '\\') = false := beq_eq_false_iff_ne.mpr hback
      have hopen : staysOpen false (c :: r) = staysOpen false r := by
        simp [staysOpen, hquote, hflag]
      rw [hopen, List.cons_append, closing?_cons hc hback]
      exact (hmap (p := [c])).trans ih

theorem scan_closing? {body : List Char} (h : closing? s = some (body, rest)) :
    scan .inside s = scan .outside rest := by
  fun_induction closing? s generalizing body rest with
  | case1 => cases h
  | case2 r =>
    obtain ⟨-, rfl⟩ := Prod.mk.inj (Option.some.inj h)
    rfl
  | case3 c r ih =>
    obtain ⟨⟨b, r'⟩, hr, he⟩ := Option.map_eq_some_iff.mp h
    obtain ⟨-, rfl⟩ := Prod.mk.inj he
    exact ih hr
  | case4 c r hq hb ih =>
    obtain ⟨⟨b, r'⟩, hr, he⟩ := Option.map_eq_some_iff.mp h
    obtain ⟨-, rfl⟩ := Prod.mk.inj he
    have hc : c ≠ '\'' := by simpa using hq
    have hback : c ≠ '\\' := by
      rintro rfl
      cases r with
      | nil => cases hr
      | cons d r => exact hb d r rfl rfl
    rw [scan_cons, ScanState.next, if_neg hc, if_neg hback, ih hr]

/-- A literal that nothing closes is never left. -/
theorem scan_of_unclosed (h : closing? s = none) : scan .inside s ≠ .outside := by
  fun_induction closing? s with
  | case1 => decide
  | case2 r => cases h
  | case3 c r ih => exact ih (Option.map_eq_none_iff.mp h)
  | case4 c r hq hb ih =>
    have hc : c ≠ '\'' := by simpa using hq
    by_cases hback : c = '\\'
    · subst hback
      cases r with
      | nil => decide
      | cons d r => exact absurd rfl (hb d r rfl)
    · rw [scan_cons, ScanState.next, if_neg hc, if_neg hback]
      exact ih (Option.map_eq_none_iff.mp h)

/-- Behind a text that the scanner leaves outside of literals the reader starts afresh. -/
theorem literals_append_of_scan (h : scan .outside s = .outside) (t : List Char) :
    literals (s ++ t) = literals s ++ literals t := by
  induction s using literals_induction with
  | nil => rw [literals_nil]; rfl
  | literal body rest hc ih =>
    have hrest : scan .outside rest = .outside := by
      rw [scan_cons] at h
      exact (scan_closing? hc).symm.trans h
    have hc' : closing? (body ++ '\'' :: (rest ++ t)) = some (body, rest ++ t) :=
      closing?_iff_staysOpen.mpr (closing?_iff_staysOpen.mp hc)
    rw [List.cons_append, List.append_assoc, List.cons_append, literals_closed hc',
      literals_closed hc, ih hrest, List.cons_append]
  | unclosed r hc ih => exact absurd h (scan_of_unclosed hc)
  | other c r hc ih =>
    rw [scan_cons, ScanState.next, if_neg hc] at h
    rw [List.cons_append, literals_cons hc, literals_cons hc, ih h]

/-! ### Sanitizing -/

theorem Pads.staysOpen {taken : Bool} (h : Pads taken s s') :
    staysOpen taken s' = Query.staysOpen taken s := by
  induction h with
  | nil => rfl
  | keep c _ ih => rw [Query.staysOpen, Query.staysOpen, ih]
  | semicolon _ ih => simpa [Query.staysOpen] using ih
  | dashes _ ih => simpa [Query.staysOpen] using ih

theorem staysOpen_restore (taken : Bool) (s : List Char) :
    staysOpen taken (restore s) = staysOpen taken s := by
  induction s using replaceAll_induction (by decide : tableEnd ['\\'] ≠ []) generalizing taken with
  | nil => rw [restore_nil]
  | occurrence s ih =>
    rw [restore_tableEnd]
    cases taken <;> simp [tableEnd, staysOpen, ih]
  | copied c s h ih => rw [restore_cons h, staysOpen, staysOpen, ih]

/-- A padded text is scanned as the text: inside of a literal the scanner knows which characters are
taken, and outside it does not matter. -/
theorem Pads.scan {taken : Bool} {state : ScanState} (h : Pads taken s s')
    (hstate : (state = .inside → taken = false) ∧ (state = .taking → taken = true)) :
    scan state s' = Query.scan state s := by
  induction h generalizing state with
  | nil => rfl
  | @keep taken c _ _ _ ih =>
    rw [scan_cons, scan_cons]
    apply ih
    cases state with
    | outside => by_cases hc : c = '\'' <;> simp [ScanState.next, hc]
    | inside =>
      by_cases hc : c = '\'' <;> by_cases hb : c = '\\' <;> simp [ScanState.next, hc, hb, hstate.1]
    | taking => simp [ScanState.next, hstate.2]
  | semicolon _ ih =>
    cases state with
    | outside => exact ih ⟨nofun, nofun⟩
    | inside => exact ih ⟨fun _ => rfl, nofun⟩
    | taking => cases hstate.2 rfl
  | dashes _ ih =>
    cases state with
    | outside => exact ih ⟨nofun, nofun⟩
    | inside => exact ih ⟨fun _ => rfl, nofun⟩
    | taking => cases hstate.2 rfl

theorem scan_restore (state : ScanState) (s : List Char) : scan state (restore s) = scan state s := by
  induction s using replaceAll_induction (by decide : tableEnd ['\\'] ≠ []) generalizing state with
  | nil => rw [restore_nil]
  | occurrence s ih =>
    rw [restore_tableEnd, scan_append, scan_append, ih]
    cases state <;> rfl
  | copied c s h ih => rw [restore_cons h, scan_cons, scan_cons, ih]

theorem decodeEntities_quote (a b : List Char) :
    decodeEntities (a ++ '\'' :: b) = decodeEntities a ++ '\'' :: decodeEntities b :=
  decodeEntities_separated (by decide) a b

theorem restore_quote (a b : List Char) :
    restore (a ++ '\'' :: b) = restore a ++ '\'' :: restore b :=
  replaceAll_separated (by decide) (by decide) a b

/-- **Sanitizing keeps two quotes of a text apart**: it changes backslashes of the decoded texts
before, between and behind them and no more. It leaves the scanner where it was before the first quote,
and the second quote closes a literal that the first one opens exactly if the decoded text between
them stays open. -/
theorem sanitize_quoted (a v b : List Char) :
    ∃ a' v' b', sanitize (a ++ '\'' :: (v ++ '\'' :: b)) = a' ++ '\'' :: (v' ++ '\'' :: b') ∧
      withoutBackslashes a' = withoutBackslashes (decodeEntities a) ∧
      withoutBackslashes v' = withoutBackslashes (decodeEntities v) ∧
      withoutBackslashes b' = withoutBackslashes (decodeEntities b) ∧
      scan .outside a' = scan .outside (decodeEntities a) ∧
      (closing? (v' ++ '\'' :: b') = some (v', b') ↔ staysOpen false (decodeEntities v) = true) := by
  have hpads := pads_escapeLiterals false
    (decodeEntities a ++ '\'' :: (decodeEntities v ++ '\'' :: decodeEntities b))
  obtain ⟨a', r, hr, ha, hrest⟩ := hpads.exists_append_quote
  obtain ⟨v', b', rfl, hv, hb⟩ := hrest.exists_append_quote
  have hscan : scan .outside a' = scan .outside (decodeEntities a) := ha.scan ⟨nofun, nofun⟩
  refine ⟨restore a', restore v', restore b', ?_, ?_, ?_, ?_, ?_, ?_⟩
  · rw [sanitize, decodeEntities_quote, decodeEntities_quote, escapeStage_eq, hr, restore_quote,
      restore_quote]
  · rw [withoutBackslashes_restore, ha.withoutBackslashes]
  · rw [withoutBackslashes_restore, hv.withoutBackslashes]
  · rw [withoutBackslashes_restore, hb.withoutBackslashes]
  · rw [scan_restore, hscan]
  · rw [closing?_iff_staysOpen, staysOpen_restore, hv.staysOpen]

end ExperimentKpi.Query
