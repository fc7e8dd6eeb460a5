/-
# Texts in the order of their bytes

The order of texts, character by character, is the order of their UTF-8 bytes (`le_iff_utf8_le`): the
bytes of a smaller character come before those of a larger one whatever follows either
(`utf8EncodeChar_append_lt`).

Key theorems: `utf8EncodeChar_append_lt`, `le_iff_utf8_le`.
-/
import ExperimentKpi.Text.Utf8
import Mathlib.Data.String.Basic

namespace ExperimentKpi.Text

theorem utf8_eq_flatMap (s : String) : utf8 s = s.toList.flatMap String.utf8EncodeChar := by
  have hbytes : s.toByteArray = (s.toList.flatMap String.utf8EncodeChar).toByteArray := by
    rw [← List.utf8Encode, ← String.toByteArray_ofList, String.ofList_toList]
  rw [utf8, String.toUTF8_eq_toByteArray, hbytes, List.data_toByteArray]

/-- The smaller of two codes is smaller in the first digit in base 64 in which they differ. -/
theorem digits_lt {m n : Nat} (h : m < n) :
    m / 262144 < n / 262144 ∨ m / 262144 = n / 262144 ∧
      (m / 4096 % 64 < n / 4096 % 64 ∨ m / 4096 % 64 = n / 4096 % 64 ∧
        (m / 64 % 64 < n / 64 % 64 ∨ m / 64 % 64 = n / 64 % 64 ∧ m % 64 < n % 64)) := by
  omega

/-- **The bytes of a smaller character come first**, whatever follows. -/
theorem utf8EncodeChar_append_lt {c d : Char} (h : c < d) (s t : List UInt8) :
    String.utf8EncodeChar c ++ s < String.utf8EncodeChar d ++ t := by
  have hval : c.val.toNat < d.val.toNat := h
  have hmax : d.val.toNat < 0x110000 := by
    rcases d.valid with hd | ⟨-, hd⟩
    · exact Nat.lt_of_lt_of_le hd (by decide)
    · exact hd
  unfold String.utf8EncodeChar
  generalize c.val.toNat = m at hval
  generalize d.val.toNat = n at hval hmax
  have hdigits := digits_lt hval
  -- Every digit of a code fits into its byte.
  have htail : ∀ k, (k % 64 + 128) % 2 ^ 8 = k % 64 + 128 := by omega
  have hm : (m / 262144 % 8 + 240) % 2 ^ 8 = m / 262144 + 240 := by omega
  have hn : (n / 262144 % 8 + 240) % 2 ^ 8 = n / 262144 + 240 := by omega
  simp only
  split_ifs
  -- A smaller code has no more bytes.
  any_goals omega
  all_goals
    simp only [List.cons_append, List.nil_append, List.cons_lt_cons_iff, UInt8.lt_iff_toNat_lt,
      ← UInt8.toNat_inj, UInt8.toNat_ofNat', htail, hm, hn]
    omega

/-- The order of texts is kept by their bytes. -/
theorem flatMap_utf8EncodeChar_lt : ∀ {s t : List Char}, s < t →
    s.flatMap String.utf8EncodeChar < t.flatMap String.utf8EncodeChar
  | _, [], h => absurd h (List.not_lt_nil _)
  | [], d :: t, _ => by
    have hcons : ∃ b bs, String.utf8EncodeChar d = b :: bs := by
      unfold String.utf8EncodeChar
      simp only
      split_ifs
      all_goals exact ⟨_, _, rfl⟩
    obtain ⟨b, bs, hb⟩ := hcons
    rw [List.flatMap_nil, List.flatMap_cons, hb]
    exact List.nil_lt_cons _ _
  | c :: s, d :: t, h => by
    rw [List.flatMap_cons, List.flatMap_cons]
    rcases List.cons_lt_cons_iff.mp h with hlt | ⟨rfl, hlt⟩
    · exact utf8EncodeChar_append_lt hlt _ _
    · exact List.append_left_lt (flatMap_utf8EncodeChar_lt hlt)

theorem utf8_lt {s t : String} (h : s < t) : utf8 s < utf8 t := by
  rw [utf8_eq_flatMap, utf8_eq_flatMap]
  exact flatMap_utf8EncodeChar_lt (String.lt_iff_toList_lt.mp h)

/-- **Texts are in the order of their bytes.** -/
theorem le_iff_utf8_le {s t : String} : s ≤ t ↔ utf8 s ≤ utf8 t := by
  constructor
  · intro h
    rcases Std.le_iff_lt_or_eq.mp h with hlt | rfl
    · exact Std.le_of_lt (utf8_lt hlt)
    · exact Std.le_refl _
  · intro h
    by_contra hlt
    exact absurd (utf8_lt (Std.not_le.mp hlt)) (Std.not_lt.mpr h)

end ExperimentKpi.Text
