import KeyedCoding.Proofs.Text.Quoted

/-!
What string literals denote: a plain literal the characters that stand for themselves and those of
its escapes, a raw literal what stands between its quotes.
-/

namespace KeyedCoding.Text.Quoted

/-- The marks of short escapes, with the characters that the escapes stand for. -/
def marks : List (Char × Char) :=
  [('n', '\n'), ('r', '\r'), ('t', '\t'), ('0', '\x00'), ('\\', '\\'), ('\'', '\''), ('"', '"')]

/-- The characters that an escaped line end swallows. -/
def blanks : List Char := [' ', '\t', '\n', '\r']

/-- Digits of a code point, and the number that they make up. -/
inductive Digits : List Char → Nat → Prop
  | none : Digits [] 0
  | digit {digits : List Char} {number value : Nat} {c : Char} (earlier : Digits digits number)
      (known : hexValue? c = some value) : Digits (digits ++ [c]) (number * 16 + value)
  | gap {digits : List Char} {number : Nat} (earlier : Digits digits number) :
      Digits (digits ++ ['_']) number

/-- What stands between the quotes of a plain literal, and the characters that it spells. -/
inductive Spells : List Char → List Char → Prop
  | nil : Spells [] []
  | itself {written text : List Char} {c : Char} (quote : c ≠ '"') (escape : c ≠ '\\')
      (carriage : c ≠ '\r') (rest : Spells written text) : Spells (c :: written) (c :: text)
  | lineEnd {written text : List Char} (rest : Spells written text) :
      Spells ('\r' :: '\n' :: written) ('\n' :: text)
  | short {written text : List Char} {mark c : Char} (known : (mark, c) ∈ marks)
      (rest : Spells written text) : Spells ('\\' :: mark :: written) (c :: text)
  | ascii {written text : List Char} {a b : Char} {high low : Nat} (first : hexValue? a = some high)
      (small : high < 8) (second : hexValue? b = some low) (rest : Spells written text) :
      Spells ('\\' :: 'x' :: a :: b :: written) (Char.ofNat (high * 16 + low) :: text)
  | codePoint {written text digits : List Char} {c : Char} (number : Digits digits c.toNat)
      (rest : Spells written text) :
      Spells ('\\' :: 'u' :: '\x7b' :: (digits ++ '\x7d' :: written)) (c :: text)
  | swallowed {written text lineEnd more : List Char}
      (ends : lineEnd = ['\n'] ∨ lineEnd = ['\r', '\n']) (blank : ∀ c ∈ more, c ∈ blanks)
      (stops : ∀ c ∈ written.head?, c ∉ blanks) (rest : Spells written text) :
      Spells ('\\' :: (lineEnd ++ (more ++ written))) text

/-- A string literal, which may have a suffix, and the text that it denotes. -/
inductive Denotes : String → String → Prop
  | plain {body text suffix : List Char} (spells : Spells body text) (behind : '"' ∉ suffix) :
      Denotes (String.ofList ('"' :: (body ++ '"' :: suffix))) (String.ofList text)
  | raw {hashes body suffix : List Char} (signs : ∀ c ∈ hashes, c = '#')
      (unclosed : ¬('"' :: hashes) <:+: body) (behind : '"' ∉ suffix) :
      Denotes (String.ofList ('r' :: (hashes ++ '"' :: (body ++ '"' :: (hashes ++ suffix)))))
        (String.ofList body)

/-- The digits of a code point are read as the number that they make up. -/
theorem Digits.readCodePoint {digits : List Char} {number : Nat} (made : Digits digits number)
    (rest : List Char) : readCodePoint 0 (digits ++ rest) = readCodePoint number rest := by
  induction made generalizing rest with
  | none => rfl
  | @digit digits number value c earlier known ih =>
    -- A digit is neither the brace nor a gap.
    have noBrace : c ≠ '\x7d' := by
      rintro rfl
      cases known
    have noGap : c ≠ '_' := by
      rintro rfl
      cases known
    rw [List.append_assoc, ih]
    simp [Quoted.readCodePoint, noBrace, noGap, known]
  | @gap digits number earlier ih =>
    rw [List.append_assoc, ih]
    simp [Quoted.readCodePoint]

/-- Blanks are skipped up to what is none. -/
theorem skipBlanks_append {front written : List Char} (blank : ∀ c ∈ front, c ∈ blanks)
    (stops : ∀ c ∈ written.head?, c ∉ blanks) : skipBlanks (front ++ written) = written := by
  -- Behind all blanks stands the end, or a character that is none.
  induction front with
  | nil =>
    cases written with
    | nil => rfl
    | cons c rest =>
      have other := stops c rfl
      simp only [blanks, List.mem_cons, List.not_mem_nil, or_false] at other
      rw [List.nil_append, skipBlanks, if_neg other]
  | cons c rest ih =>
    rw [List.forall_mem_cons] at blank
    obtain ⟨here, behind⟩ := blank
    simp only [blanks, List.mem_cons, List.not_mem_nil, or_false] at here
    rw [List.cons_append, skipBlanks, if_pos here, ih behind]

/-- What spells some characters is read as these, up to the closing quote. -/
theorem unescape_of_spells {written text : List Char} (spells : Spells written text)
    (rest : List Char) : unescape (written ++ '"' :: rest) = text := by
  induction spells with
  | nil => simp [unescape]
  | itself quote escape carriage _ ih => rw [List.cons_append, unescape_cons quote escape carriage, ih]
  | lineEnd _ ih => simp [unescape, ih]
  | short known _ ih =>
    simp only [marks, List.mem_cons, List.not_mem_nil, or_false, Prod.mk.injEq] at known
    rcases known with ⟨rfl, rfl⟩ | ⟨rfl, rfl⟩ | ⟨rfl, rfl⟩ | ⟨rfl, rfl⟩ | ⟨rfl, rfl⟩ | ⟨rfl, rfl⟩ |
      ⟨rfl, rfl⟩ <;> simp [unescape, ih]
  | ascii first small second _ ih => simp [unescape, first, second, ih]
  | @codePoint written text digits c number _ ih =>
    -- The digits end at the brace, where their number is taken for a character.
    have read : readCodePoint 0 (digits ++ ('\x7d' :: (written ++ '"' :: rest))) =
        some (c, written ++ '"' :: rest) := by
      rw [number.readCodePoint, readCodePoint, if_pos rfl, Char.ofNat_toNat]
    rw [List.cons_append, List.cons_append, List.cons_append, List.append_assoc, List.cons_append,
      unescape_codePoint read, ih]
  | @swallowed written text lineEnd more ends blank stops _ ih =>
    -- What follows the blanks is no blank, also where it is the closing quote.
    have behind : ∀ c ∈ (written ++ '"' :: rest).head?, c ∉ blanks := by
      cases written with
      | nil => simp [blanks]
      | cons first others => exact stops
    have skipped := skipBlanks_append blank behind
    rcases ends with rfl | rfl
    · simp [unescape, skipped, ih]
    · simp [unescape, skipBlanks, skipped, ih]

/-- What stands between the quotes of a raw literal is found by its last quote. -/
theorem unquoteRaw_eq {hashes body behind : List Char} (signs : ∀ c ∈ hashes, c = '#')
    (noQuote : '"' ∉ behind) :
    unquoteRaw (hashes ++ '"' :: (body ++ '"' :: behind)) = body := by
  -- The opening quote is the first one behind the signs, and the closing quote is the last one.
  have opens : (hashes ++ '"' :: (body ++ '"' :: behind)).dropWhile (· = '#') =
      '"' :: (body ++ '"' :: behind) := by
    rw [List.dropWhile_append_of_pos (by simpa using signs)]
    rfl
  have others : ∀ c ∈ behind.reverse, decide (c ≠ '"') = true := by
    intro c inside
    rw [decide_eq_true_iff]
    rintro rfl
    exact noQuote (List.mem_reverse.mp inside)
  have closes : ((body ++ '"' :: behind).reverse.dropWhile (· ≠ '"')) = '"' :: body.reverse := by
    rw [List.reverse_append, List.reverse_cons, List.append_assoc,
      List.dropWhile_append_of_pos others]
    rfl
  rw [unquoteRaw, opens, List.drop_succ_cons, List.drop_zero, closes, List.drop_succ_cons,
    List.drop_zero, List.reverse_reverse]

/-- A literal is read as the text that it denotes. -/
theorem value?_of_denotes {written text : String} (denotes : Denotes written text) :
    value? written = some text := by
  cases denotes with
  | plain spells _ => simp [value?, unescape_of_spells spells]
  | @raw hashes body suffix signs _ behind =>
    -- The last quote is the closing one, because neither the hashes nor the suffix has any.
    have noQuote : '"' ∉ hashes ++ suffix := by
      rw [List.mem_append]
      rintro (inside | inside)
      · cases signs _ inside
      · exact behind inside
    simp only [value?, String.toList_ofList, unquoteRaw_eq signs noQuote]

end KeyedCoding.Text.Quoted
