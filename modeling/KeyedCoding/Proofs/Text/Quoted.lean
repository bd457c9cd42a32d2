import KeyedCoding.Text.Quoted

/-! The round trip of quoted text: the literal that is written for a text denotes it again. -/

namespace KeyedCoding.Text

/--
The digit that stands for a small number has that number as its value, and is no mark of an escape.
-/
theorem hexValue?_digitChar {digit : Nat} (small : digit < 16) :
    hexValue? digit.digitChar = some digit ∧ digit.digitChar ≠ '\x7d' ∧ digit.digitChar ≠ '_' := by
  -- There are sixteen digits.
  revert digit
  decide

namespace Quoted

/-- The digits of a number are read as that number. -/
theorem readCodePoint_hexDigits (number : Nat) (rest : List Char) :
    readCodePoint 0 (hexDigits number ++ rest) = readCodePoint number rest := by
  -- All digits but the last are those of a smaller number.
  induction number using Nat.strongRecOn generalizing rest with
  | ind number ih =>
    rw [hexDigits, Nat.toDigits_eq_if (by decide)]
    by_cases small : number < 16
    · -- A single digit adds its value to nothing.
      obtain ⟨value, noBrace, noGap⟩ := hexValue?_digitChar small
      simp [small, readCodePoint, value, noBrace, noGap]
    · -- The last digit is read behind the digits of the quotient.
      obtain ⟨value, noBrace, noGap⟩ :=
        hexValue?_digitChar (Nat.mod_lt number (show 0 < 16 by decide))
      have shorter := ih (number / 16) (by omega) ((number % 16).digitChar :: rest)
      rw [hexDigits] at shorter
      have whole : number / 16 * 16 + number % 16 = number := by omega
      rw [if_neg small, List.append_assoc, List.singleton_append, shorter]
      simp [readCodePoint, value, noBrace, noGap, whole]

/-- An escape by a code point is read as the character of that number. -/
theorem unescape_codePoint {c : Char} {cs rest : List Char}
    (read : readCodePoint 0 cs = some (c, rest)) :
    unescape ('\\' :: 'u' :: '\x7b' :: cs) = c :: unescape rest := by
  -- The reader of the code point has given its answer, so only one case is left.
  rw [unescape]
  split
  · rename_i found again
    rw [read] at again
    cases again
    rfl
  · rename_i none
    rw [read] at none
    cases none

/-- The escape of a character by its code point is read as the character. -/
theorem unescape_codePointEscape (c : Char) (rest : List Char) :
    unescape (codePointEscape c ++ rest) = c :: unescape rest := by
  -- The digits end at the brace, where the number is taken for a character.
  have read : readCodePoint 0 (hexDigits c.toNat ++ '\x7d' :: rest) = some (c, rest) := by
    rw [readCodePoint_hexDigits, readCodePoint, if_pos rfl, Char.ofNat_toNat]
  have shape : codePointEscape c ++ rest =
      '\\' :: 'u' :: '\x7b' :: (hexDigits c.toNat ++ '\x7d' :: rest) := by
    simp [codePointEscape]
  rw [shape, unescape_codePoint read]

/-- A character that needs no escape stands for itself. -/
theorem unescape_cons {c : Char} (quote : c ≠ '"') (escape : c ≠ '\\') (carriage : c ≠ '\r')
    (rest : List Char) : unescape (c :: rest) = c :: unescape rest := by
  -- Every other case of the reader starts with one of the three characters.
  rw [unescape]
  all_goals simp_all

/-- What is written for a character, the null character apart, is read as that character. -/
theorem unescape_escapeChar {c : Char} (rest : List Char) :
    unescape (escapeChar c ++ rest) = c :: unescape rest := by
  -- The escapes are tried in the order in which the writer chooses them.
  rw [escapeChar]
  split
  · subst c
    simp [unescape]
  · split
    · subst c
      simp [unescape]
    · split
      · subst c
        simp [unescape]
      · split
        · subst c
          simp [unescape]
        · split
          · subst c
            simp [unescape]
          · -- Only a character that is visible stands for itself.
            rename_i carriage _ quote escape
            split
            · exact unescape_codePointEscape c rest
            · split
              · exact unescape_cons quote escape carriage rest
              · exact unescape_codePointEscape c rest

/-- What is written between the quotes is read as the text, up to the closing quote. -/
theorem unescape_escapeLiteral (cs rest : List Char) :
    unescape (escapeLiteral cs ++ '"' :: rest) = cs := by
  -- The text is read back character by character.
  induction cs with
  | nil => simp [escapeLiteral, unescape]
  | cons c cs ih =>
    rw [escapeLiteral]
    split
    · subst c
      -- A null character has a short escape and a long one.
      split
      · simp [unescape, hexValue?, ih]
      · simp [unescape, ih]
    · rw [List.append_assoc, unescape_escapeChar, ih]

/-- The literal that is written for a text denotes the text. -/
theorem value?_literal (text : String) : value? (literal text) = some text := by
  -- Taking off the quotes leaves what has been escaped.
  simp [value?, literal, unescape_escapeLiteral]

/-- The literal that is written for a text has no suffix. -/
theorem suffix_literal (text : String) : suffix (literal text) = "" := by
  -- The last character is the quote that a suffix would follow.
  simp [suffix, literal]

end Quoted

end KeyedCoding.Text
