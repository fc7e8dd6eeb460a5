/-
# Texts as bytes

The UTF-8 encoding of texts. Not every row of bytes is the encoding of a text.

Key definitions: `Text.utf8`, `Text.ofUtf8?`.
-/
namespace ExperimentKpi.Text

/-- The UTF-8 bytes of a text. -/
def utf8 (s : String) : List UInt8 :=
  s.toUTF8.data.toList

/-- The text that has the given UTF-8 bytes. -/
def ofUtf8? (bytes : List UInt8) : Option String :=
  String.fromUTF8? ⟨bytes.toArray⟩

end ExperimentKpi.Text
