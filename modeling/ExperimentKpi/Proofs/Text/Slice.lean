/-
# Texts cut at bytes

A text can be cut at a byte offset where no character goes on, and `slice?` takes what stands between two
such offsets. So a part of a text is found between the offsets at which it starts and ends
(`slice?_append`).

A byte below 128 is a character of its own and stands in the encoding of no other one
(`mem_utf8EncodeChar_iff`): who looks for such a byte finds the character.

Key definitions: `slice?`.
Key theorems: `slice?_append`, `utf8EncodeChar_ascii`, `mem_utf8EncodeChar_iff`.
-/
import ExperimentKpi.Proofs.Text.ByteOrder

namespace ExperimentKpi.Text

/-! ### Slices -/

/-- The part of a text between two byte offsets. There is none if one of them lies within a character or
behind the text, or if they are in the wrong order. -/
def slice? (source : String) (start stop : Nat) : Option String :=
  if h : String.Pos.Raw.IsValid source ⟨start⟩ ∧ String.Pos.Raw.IsValid source ⟨stop⟩ ∧
      start ≤ stop then
    some (source.extract (source.pos ⟨start⟩ h.1) (source.pos ⟨stop⟩ h.2.1))
  else none

theorem isValid_append (a b : String) : String.Pos.Raw.IsValid (a ++ b) ⟨a.utf8ByteSize⟩ :=
  String.Pos.Raw.isValid_iff_exists_append.mpr ⟨a, b, rfl, rfl⟩

/-- **A part of a text is what stands between its ends.** -/
theorem slice?_append (a m b : String) :
    slice? (a ++ m ++ b) a.utf8ByteSize (a ++ m).utf8ByteSize = some m := by
  have hstart : String.Pos.Raw.IsValid (a ++ m ++ b) ⟨a.utf8ByteSize⟩ := by
    rw [String.append_assoc]
    exact isValid_append a (m ++ b)
  have hle : a.utf8ByteSize ≤ (a ++ m).utf8ByteSize := by
    rw [String.utf8ByteSize_append]
    omega
  have hbytes : (a ++ m ++ b).toByteArray.extract a.utf8ByteSize (a ++ m).utf8ByteSize =
      m.toByteArray :=
    calc (a ++ m ++ b).toByteArray.extract a.utf8ByteSize (a ++ m).utf8ByteSize
        = (a.toByteArray ++ (m.toByteArray ++ b.toByteArray)).extract
            (a.toByteArray.size + 0) (a.toByteArray.size + m.toByteArray.size) := by
          rw [String.utf8ByteSize_append, String.toByteArray_append, String.toByteArray_append,
            ByteArray.append_assoc]
          rfl
      _ = (m.toByteArray ++ b.toByteArray).extract 0 m.toByteArray.size :=
          ByteArray.extract_append_size_add
      _ = m.toByteArray := ByteArray.extract_append_eq_left rfl
  rw [slice?, dif_pos ⟨hstart, isValid_append (a ++ m) b, hle⟩, Option.some.injEq,
    ← String.toByteArray_inj]
  exact hbytes

/-! ### Bytes that are characters -/

/-- A character below 128 is one byte. -/
theorem utf8EncodeChar_ascii {c : Char} (h : c.toNat < 128) :
    String.utf8EncodeChar c = [c.toUInt8] := by
  have hsize : c.utf8Size = 1 := by
    rw [Char.utf8Size_eq_one_iff, UInt32.le_iff_toNat_le]
    exact Nat.le_of_lt_succ h
  exact String.utf8EncodeChar_eq_singleton hsize

/-- **The byte of a character below 128 stands in the encoding of no other one.** -/
theorem mem_utf8EncodeChar_iff {c d : Char} (h : c.toNat < 128) :
    c.toUInt8 ∈ String.utf8EncodeChar d ↔ d = c := by
  constructor
  · intro hmem
    have hbyte : c.toUInt8.toNat = c.toNat := by
      rw [Char.toUInt8, UInt32.toNat_toUInt8]
      exact Nat.mod_eq_of_lt (by change c.toNat < 256; omega)
    have hcode : d.val.toNat = c.toNat → d = c := fun h => Char.toNat_inj.mp h
    unfold String.utf8EncodeChar at hmem
    generalize d.val.toNat = n at hmem hcode
    simp only at hmem
    -- Every other character has a smaller byte or none but larger ones.
    split_ifs at hmem
    all_goals
      simp only [List.mem_cons, List.not_mem_nil, or_false, ← UInt8.toNat_inj, UInt8.toNat_ofNat',
        hbyte] at hmem
      exact hcode (by omega)
  · rintro rfl
    rw [utf8EncodeChar_ascii h]
    exact List.mem_singleton_self _

end ExperimentKpi.Text
