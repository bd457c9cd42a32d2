/-! The bytes of texts. Reading bytes accepts exactly what writing a text produces. -/

namespace KeyedCoding.Text.Utf8

/-- The bytes of a text. -/
def encode (text : String) : List UInt8 := text.toByteArray.data.toList

/-- The text that has the given bytes, if there is one. -/
def decode? (bytes : List UInt8) : Option String := String.fromUTF8? ⟨bytes.toArray⟩

/-- The bytes of a text read back as the text. -/
theorem decode?_encode (text : String) : decode? (encode text) = some text := by
  -- A text is its bytes together with the fact that they are valid.
  have valid : (⟨(encode text).toArray⟩ : ByteArray) = text.toByteArray := by simp [encode]
  simp only [decode?, String.fromUTF8?, valid]
  rw [dif_pos text.isValidUTF8]
  rfl

/-- Bytes that read as a text are the bytes of that text. -/
theorem encode_of_decode? {bytes : List UInt8} {text : String}
    (read : decode? bytes = some text) : encode text = bytes := by
  -- Reading keeps the bytes and only adds that they are valid.
  unfold decode? String.fromUTF8? at read
  split at read
  · simp only [Option.some.injEq] at read
    subst read
    simp [encode, String.fromUTF8]
  · simp at read

end KeyedCoding.Text.Utf8
