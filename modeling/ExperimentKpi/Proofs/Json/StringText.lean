/-
# Texts read back from their literals

Each character is written in a form that is read as one part (`parts?_escape`), and the parts of a
text spell the text, so that a literal is one token, of which nothing depends on what follows it.

Key definitions: `Json.part`.
Key theorems: `Json.parts?_escape`, `Json.partsText?_map_part`, `Json.Token.next?_literal`.
-/
import ExperimentKpi.Json.Printer
import ExperimentKpi.Json.Token
import Mathlib.Tactic.SplitIfs

namespace ExperimentKpi.Json

/-- The part of a literal as which the form of a character is read: control characters without a
short form are written as code units. -/
def part (c : Char) : Part :=
  if c.toNat < 32 ∧ c ∉ ['\n', '\r', '\t', '\x08', '\x0c'] then .unit c.toNat else .char c

theorem unit?_hexDigit {n : Nat} (h : n < 32) :
    unit? '0' '0' (hexDigit (n / 16)) (hexDigit (n % 16)) = some n := by
  revert n
  decide

/-- An escape with one letter is read as the character that it stands for. -/
theorem parts?_short {c e : Char} {s rest : List Char} {ps : List Part} (he : e ≠ 'u')
    (hescaped : escaped? e = some c) (hpart : part c = .char c) (h : parts? s = some (ps, rest)) :
    parts? ('\\' :: e :: s) = some (part c :: ps, rest) := by
  rw [parts?, hescaped, h, hpart]
  · rfl
  · exact fun _ _ _ _ _ hu _ => he hu

/-- The form of a character is read as one part. -/
theorem parts?_escape (c : Char) {s rest : List Char} {ps : List Part}
    (h : parts? s = some (ps, rest)) : parts? (escape c ++ s) = some (part c :: ps, rest) := by
  have hchar : ∀ n : Nat, c.toNat = n → c = Char.ofNat n := fun n hn => by
    rw [← hn, Char.ofNat_toNat]
  by_cases hq : c = '"'
  · subst hq
    exact parts?_short (by decide) rfl rfl h
  by_cases hb : c = '\\'
  · subst hb
    exact parts?_short (by decide) rfl rfl h
  by_cases hn : c = '\n'
  · subst hn
    exact parts?_short (by decide) rfl rfl h
  by_cases hr : c = '\r'
  · subst hr
    exact parts?_short (by decide) rfl rfl h
  by_cases ht : c = '\t'
  · subst ht
    exact parts?_short (by decide) rfl rfl h
  by_cases h8 : c.toNat = 8
  · rw [hchar 8 h8]
    exact parts?_short (by decide) rfl rfl h
  by_cases hc : c.toNat = 12
  · rw [hchar 12 hc]
    exact parts?_short (by decide) rfl rfl h
  rw [escape, if_neg hq, if_neg hb, if_neg hn, if_neg hr, if_neg ht, if_neg h8, if_neg hc]
  by_cases hu : c.toNat < 32
  · have hp : part c = .unit c.toNat := by
      have h8' : c ≠ '\x08' := fun he => h8 (by rw [he]; rfl)
      have hc' : c ≠ '\x0c' := fun he => hc (by rw [he]; rfl)
      simp [part, hu, hn, hr, ht, h8', hc']
    rw [if_pos hu]
    simp only [List.cons_append, List.nil_append]
    rw [parts?, unit?_hexDigit hu, h, hp]
    rfl
  · have hp : part c = .char c := if_neg fun hcontrol => hu hcontrol.1
    have hplain : ¬ (c.toNat < 0x20 ∨ c = '\\') := not_or.mpr ⟨hu, hb⟩
    rw [if_neg hu, List.singleton_append, parts?, if_neg hplain, h, hp]
    · rfl
    · exact hq
    · exact fun _ _ _ _ _ hr _ => hb hr
    · exact fun _ _ hr _ => hb hr

/-- The parts of a text spell the text. -/
theorem partsText?_map_part (s : List Char) : partsText? (s.map part) = some s := by
  induction s with
  | nil => rfl
  | cons c s ih =>
    by_cases hc : c.toNat < 32 ∧ c ∉ ['\n', '\r', '\t', '\x08', '\x0c']
    · have hp : part c = .unit c.toNat := if_pos hc
      have h1 : ¬ (0xd800 ≤ c.toNat ∧ c.toNat < 0xdc00) := by omega
      have h2 : ¬ (0xdc00 ≤ c.toNat ∧ c.toNat < 0xe000) := by omega
      rw [List.map_cons, hp, partsText?.eq_def]
      simp [h1, h2, ih]
    · have hp : part c = .char c := if_neg hc
      simp [hp, partsText?, ih]

theorem parts?_flatMap_escape (s rest : List Char) :
    parts? (s.flatMap escape ++ '"' :: rest) = some (s.map part, rest) := by
  induction s with
  | nil => simp [parts?]
  | cons c s ih =>
    rw [List.flatMap_cons, List.append_assoc]
    exact parts?_escape c ih

theorem Token.next?_quote (r : List Char) :
    Token.next? ('"' :: r) =
      (parts? r).map fun (ps, rest) => (.str ((partsText? ps).map String.ofList), rest) :=
  rfl

/-- The literal of a text is one token. -/
theorem Token.next?_literal (s : String) (rest : List Char) :
    Token.next? (literal s ++ rest) = some (.str (some s), rest) := by
  have h := parts?_flatMap_escape s.toList rest
  have hliteral : literal s ++ rest = '"' :: (s.toList.flatMap escape ++ '"' :: rest) := by
    rw [literal, List.append_assoc, List.cons_append, List.singleton_append]
  rw [hliteral, Token.next?_quote, h, Option.map_some]
  simp only [partsText?_map_part, Option.map_some, String.ofList_toList]

end ExperimentKpi.Json
