import KeyedCoding.Token.Lexeme

/-! Laws of names in a source: a name before a blank is read as that name, and as nothing else. -/

namespace KeyedCoding

namespace Text

/-- Ranges of code points that hold all separators and no letter. -/
def gapRanges : List (Nat × Nat) :=
  [(0, 0x20), (0x85, 0xa0), (0x1680, 0x1680), (0x2000, 0x206f), (0x3000, 0x3000)]

/-- A separator lies in one of the gaps. -/
theorem exists_gap_of_isSeparator {c : Char} (separates : isSeparator c = true) :
    ∃ gap ∈ gapRanges, gap.1 ≤ c.toNat ∧ c.toNat ≤ gap.2 := by
  simp only [gapRanges, List.mem_cons, List.not_mem_nil, or_false, exists_eq_or_imp, exists_eq_left]
  simp only [isSeparator, isBlank, Bool.or_eq_true, Bool.and_eq_true, decide_eq_true_eq, beq_iff_eq,
    or_assoc] at separates
  generalize c.toNat = code at separates ⊢
  -- Thirteen conditions make a separator, and each of them lies in one gap.
  rcases separates with here | here | here | here | here | here | here | here | here | here |
    here | here | here <;>
    omega

/-- A character that a name starts with separates no tokens. -/
theorem not_isSeparator_of_isNameStart {c : Char} (starts : isNameStart c = true) :
    isSeparator c = false := by
  -- A separator lies in a gap, and the ranges of letters avoid the gaps.
  rw [← Bool.not_eq_true]
  intro separates
  obtain ⟨gap, among, low, high⟩ := exists_gap_of_isSeparator separates
  rw [isNameStart] at starts
  split at starts
  · -- The letters of ASCII lie behind its controls and before the other gaps.
    rename_i ascii
    have code : ∀ code < 0x80, ((Char.ofNat code).isAlpha || Char.ofNat code == '_') = true →
        ∀ gap ∈ gapRanges, gap.1 ≤ code → gap.2 < code := by decide
    have beyond := code c.toNat ascii (by rwa [Char.ofNat_toNat]) gap among low
    omega
  · -- Beyond ASCII the ranges of both kinds are disjoint.
    have disjoint : ∀ range ∈ nameStartRanges.toList, ∀ gap ∈ gapRanges,
        range.2 < gap.1 ∨ gap.2 < range.1 := by
      decide +kernel
    rw [inRanges, ← Array.any_toList, List.any_eq_true] at starts
    obtain ⟨range, inside, within⟩ := starts
    simp only [Bool.and_eq_true, decide_eq_true_eq] at within
    have apart := disjoint range inside gap among
    omega

/-- The characters of ASCII that no name starts with, and the mark of a text file. -/
def nameless : List Char := "\"'#()[]\x7b\x7d~!@$%^&*-=+|;:,<.>/?\\ 0123456789\ufeff".toList

/-- A character that a name starts with is none of those. -/
theorem not_mem_nameless {c : Char} (starts : isNameStart c = true) : c ∉ nameless := by
  -- The table is searched as a list, which can be evaluated.
  have search (d : Char) : isNameStart d = if d.toNat < 0x80 then d.isAlpha || d == '_'
      else nameStartRanges.toList.any fun range => range.1 ≤ d.toNat && d.toNat ≤ range.2 := by
    rw [isNameStart, inRanges, Array.any_toList]
  have none : (nameless.all fun d => !isNameStart d) = true := by
    simp only [search]
    decide +kernel
  -- A letter among them would not start a name.
  intro inside
  have other := List.all_eq_true.mp none c inside
  rw [starts] at other
  cases other

end Text

namespace Lexeme

open Text

/-- The letters of a name: one that a name starts with, and then any that continue it. -/
def IsLetters (cs : List Char) : Prop :=
  ∃ c rest, cs = c :: rest ∧ isNameStart c = true ∧ rest.all isNameContinue = true

/-- A spelling of a name: letters, behind the raw marker if it has one. -/
def IsName (spelling : String) : Prop :=
  IsLetters spelling.toList ∨
    ∃ letters, spelling.toList = 'r' :: '#' :: letters ∧ IsLetters letters ∧
      rawless.contains (String.ofList letters) = false

/-- What may follow a name: nothing, or a blank. -/
def EndsName (rest : List Char) : Prop := rest = [] ∨ ∃ more, rest = ' ' :: more

variable {cs letters rest : List Char} {spelling : String}

/-- What is read as a plain name are letters. -/
theorem isLetters_of_plainName? (read : plainName? cs = some (letters, rest)) :
    IsLetters letters := by
  -- The first character is checked, and the others are taken as long as they pass.
  cases cs with
  | nil => cases read
  | cons c more =>
    rw [plainName?] at read
    split at read
    · rename_i starts
      cases read
      exact ⟨c, _, rfl, starts, List.all_takeWhile⟩
    · cases read

/-- What is read as a name is a spelling of one. -/
theorem isName_of_name? (read : name? cs = some (spelling, rest)) : IsName spelling := by
  -- Where no quote opens, the raw marker decides which of the two spellings it is.
  rw [name?] at read
  split at read
  · cases read
  · rw [anyName?.eq_def] at read
    split at read
    · split at read
      · rename_i letters after plain
        split at read
        · cases read
        · rename_i raw
          cases read
          exact .inr ⟨letters, by simp, isLetters_of_plainName? plain, by simpa using raw⟩
      · cases read
    · obtain ⟨found, plain, same⟩ := Option.map_eq_some_iff.mp read
      cases same
      exact .inl (by simpa using isLetters_of_plainName? plain)

/-- Letters before a blank are read up to the blank. -/
theorem plainName?_append (word : IsLetters letters) (ends : EndsName rest) :
    plainName? (letters ++ rest) = some (letters, rest) := by
  obtain ⟨c, more, rfl, starts, continues⟩ := word
  -- The letters are all that is taken, because a blank continues no name.
  have stops : rest.takeWhile isNameContinue = [] ∧ rest.dropWhile isNameContinue = rest := by
    have blank : isNameContinue ' ' = false := by decide
    obtain rfl | ⟨tail, rfl⟩ := ends
    · simp
    · simp [blank]
  have each := List.all_eq_true.mp continues
  rw [List.cons_append, plainName?, if_pos starts, List.takeWhile_append_of_pos each,
    List.dropWhile_append_of_pos each, stops.1, stops.2, List.append_nil]

/-- No quote and no hash stands before the first blank. -/
def Unmarked (cs : List Char) : Prop := ∀ c ∈ cs.takeWhile (· ≠ ' '), c ∉ ['"', '\'', '#']

/-- Without marks, the first character is none. -/
theorem Unmarked.head? (unmarked : Unmarked cs) {mark : Char} (isMark : mark ∈ ['"', '\'', '#']) :
    cs.head? ≠ some mark := by
  cases cs with
  | nil => simp
  | cons c more =>
    intro same
    obtain rfl : c = mark := by simpa using same
    -- A mark is no blank, so it would stand before the first one.
    have noBlank : c ≠ ' ' := by
      rintro rfl
      simp at isMark
    exact unmarked c (by simp [noBlank]) isMark

/-- Behind a letter there are no marks, either. -/
theorem Unmarked.tail {c : Char} (unmarked : Unmarked (c :: cs)) (letter : c ≠ ' ') :
    Unmarked cs := by
  -- What is taken of the tail is also taken behind the letter.
  intro d inside
  refine unmarked d ?_
  rw [List.takeWhile_cons_of_pos (by simpa using letter)]
  exact List.mem_cons_of_mem c inside

/-- Letters before a blank are not marked. -/
theorem IsLetters.unmarked (word : IsLetters letters) (ends : EndsName rest) :
    Unmarked (letters ++ rest) := by
  obtain ⟨c, more, rfl, starts, continues⟩ := word
  have marks : (['"', '\'', '#', ' '].all fun d =>
      nameless.contains d && !isNameContinue d) = true := by decide
  -- Neither the first letter nor a later one is a mark or a blank.
  have all : ∀ d ∈ c :: more, d ∉ ['"', '\'', '#', ' '] := by
    intro d inside isMark
    have mark := List.all_eq_true.mp marks d isMark
    rw [Bool.and_eq_true, List.contains_iff_mem, Bool.not_eq_true'] at mark
    rcases List.mem_cons.mp inside with rfl | later
    · exact not_mem_nameless starts mark.1
    · exact absurd (List.all_eq_true.mp continues d later) (by simp [mark.2])
  -- What stands before the first blank are exactly the letters.
  have prefixed : ((c :: more) ++ rest).takeWhile (· ≠ ' ') = c :: more := by
    have letters : ∀ d ∈ c :: more, decide (d ≠ ' ') = true := by
      intro d inside
      simpa using fun same => all d inside (by simp [same])
    rw [List.takeWhile_append_of_pos letters]
    obtain rfl | ⟨tail, rfl⟩ := ends <;> simp
  intro d inside isMark
  rw [prefixed] at inside
  exact all d inside (List.mem_append_left [' '] isMark)

/-- Text without marks opens no quoted literal that belongs to a name. -/
theorem not_quoteStart_of_unmarked (unmarked : Unmarked cs) :
    quoteStarts.any (startsWith · cs) = false := by
  -- Every such opening holds a mark and no blank.
  have marked : (quoteStarts.all fun start =>
      start.toList.all (· != ' ') && start.toList.any ['"', '\'', '#'].contains) = true := by decide
  rw [List.any_eq_false]
  intro start among opens
  have both := List.all_eq_true.mp marked start among
  rw [Bool.and_eq_true, List.all_eq_true, List.any_eq_true] at both
  -- The mark of the opening would stand before the first blank.
  obtain ⟨noBlank, mark, inside, isMark⟩ := both
  obtain ⟨more, rfl⟩ := List.isPrefixOf_iff_prefix.mp opens
  refine unmarked mark ?_ (List.contains_iff_mem.mp isMark)
  rw [List.takeWhile_append_of_pos fun c within => by simpa using noBlank c within]
  exact List.mem_append_left _ inside

/-- Without a quote behind the hashes there is no raw literal. -/
theorem rawEnd?_eq_none (kind : QuoteKind) (noQuote : (cs.dropWhile (· = '#')).head? ≠ some '"') :
    rawEnd? kind cs = none := by
  -- A raw literal would go on with a quote behind its signs.
  rw [rawEnd?]
  split
  · rename_i body opens
    simp [opens] at noQuote
  · rfl

/-- Text without marks holds no raw literal. -/
theorem rawEnd?_eq_none_of_unmarked (kind : QuoteKind) (unmarked : Unmarked cs) :
    rawEnd? kind cs = none := by
  refine rawEnd?_eq_none kind ?_
  -- There is no hash to drop, and so no quote behind one.
  have noHash : cs.dropWhile (· = '#') = cs := by
    cases cs with
    | nil => rfl
    | cons c more =>
      have other := unmarked.head? (show '#' ∈ ['"', '\'', '#'] by decide)
      exact List.dropWhile_cons_of_neg (by simpa using other)
  rw [noHash]
  exact unmarked.head? (by decide)

/-- Text without marks opens no quoted literal. -/
theorem quoteEnd?_eq_none_of_unmarked {c : Char} (unmarked : Unmarked (c :: cs))
    (letter : c ≠ ' ') :
    quoteEnd? (c :: cs) = none := by
  -- Neither here nor behind the first letter stands a mark.
  have behind := unmarked.tail letter
  have quote : c ≠ '"' := fun same => unmarked.head? (show '"' ∈ ['"', '\'', '#'] by decide)
    (by simp [same])
  have apostrophe : c ≠ '\'' := fun same => unmarked.head? (show '\'' ∈ ['"', '\'', '#'] by decide)
    (by simp [same])
  have quoteNext := behind.head? (show '"' ∈ ['"', '\'', '#'] by decide)
  have apostropheNext := behind.head? (show '\'' ∈ ['"', '\'', '#'] by decide)
  unfold quoteEnd?
  -- A quote is missing wherever one would have to stand, and what is left are raw literals.
  split
  all_goals simp_all
  case h_2 => exact rawEnd?_eq_none_of_unmarked .text behind
  case h_4 => exact rawEnd?_eq_none_of_unmarked .bytes (behind.tail (by decide))
  case h_6 => exact rawEnd?_eq_none_of_unmarked .nullEnded (behind.tail (by decide))

/-- A hexadecimal digit that is no decimal one stands for ten or more. -/
theorem ten_le_of_hexValue? {c : Char} {digit : Nat} (other : c.isDigit = false)
    (value : hexValue? c = some digit) :
    10 ≤ digit := by
  -- Of the three kinds of digits the decimal one is excluded.
  rw [hexValue?] at value
  split at value
  · rename_i decimal
    have digit : c.isDigit = true := by
      simp only [Char.isDigit, Bool.and_eq_true, decide_eq_true_eq]
      exact decimal
    simp [digit] at other
  · split at value
    · cases value
      omega
    · split at value
      · cases value
        omega
      · cases value

/-- What does not start with a digit is no number. -/
theorem numberEnd?_eq_none {c : Char} (other : c.isDigit = false) :
    numberEnd? (c :: cs) = none := by
  -- Both kinds of numbers start with a decimal digit.
  have float : floatDigitsEnd? (c :: cs) = none := by simp [floatDigitsEnd?, other]
  have whole : wholeEnd? (c :: cs) = none := by
    have noZero : c ≠ '0' := by
      rintro rfl
      simp at other
    have digits : wholeDigitsEnd? 10 true (c :: cs) = none := by
      simp only [wholeDigitsEnd?]
      split
      · rfl
      · split
        · rfl
        · -- A hexadecimal digit that is no decimal one is a letter.
          rename_i digit value
          have large := ten_le_of_hexValue? other value
          simp [Nat.not_lt.mpr large]
    unfold wholeEnd?
    split
    · simp_all
    · simp_all
    · simp_all
    · exact digits
  simp [numberEnd?, float, whole]

/-- A character that a name starts with is neither a blank nor a digit. -/
theorem not_blank_of_isNameStart {c : Char} (starts : isNameStart c = true) :
    c ≠ ' ' ∧ c.isDigit = false := by
  have absent := not_mem_nameless starts
  refine ⟨fun same => absent (same ▸ by decide), ?_⟩
  rw [← Bool.not_eq_true]
  intro digit
  -- There are ten digits.
  have code : ∀ code < 0x80, (Char.ofNat code).isDigit = true → Char.ofNat code ∈ nameless := by
    decide
  have small : c.toNat < 0x80 := by
    simp only [Char.isDigit, Bool.and_eq_true, decide_eq_true_eq] at digit
    have below := UInt32.le_iff_toNat_le.mp digit.2
    exact Nat.lt_of_le_of_lt below (by decide)
  have among := code c.toNat small
  rw [Char.ofNat_toNat] at among
  exact absent (among digit)

/-- A name before a blank is no literal. -/
theorem literalEnd?_eq_none (name : IsName spelling) (ends : EndsName rest) :
    literalEnd? (spelling.toList ++ rest) = none := by
  obtain word | ⟨letters, shape, word, -⟩ := name
  · -- Letters hold no mark, and the first of them is no digit.
    have unmarked := word.unmarked ends
    obtain ⟨c, more, shape, starts, -⟩ := word
    obtain ⟨letter, noDigit⟩ := not_blank_of_isNameStart starts
    rw [shape, List.cons_append] at unmarked ⊢
    simp [literalEnd?, quoteEnd?_eq_none_of_unmarked unmarked letter, numberEnd?_eq_none noDigit]
  · -- Behind the raw marker stand letters, and no quote.
    have unmarked := word.unmarked ends
    obtain ⟨c, more, rfl, -, -⟩ := word
    have noHash := unmarked.head? (show '#' ∈ ['"', '\'', '#'] by decide)
    have noQuote := unmarked.head? (show '"' ∈ ['"', '\'', '#'] by decide)
    have raw : rawEnd? .text ('#' :: ((c :: more) ++ rest)) = none := by
      refine rawEnd?_eq_none .text ?_
      rw [List.dropWhile_cons_of_pos (by simp), List.cons_append,
        List.dropWhile_cons_of_neg (by simpa using noHash)]
      exact noQuote
    rw [shape]
    simp only [List.cons_append] at raw ⊢
    simp [literalEnd?, quoteEnd?, raw, numberEnd?_eq_none (show 'r'.isDigit = false by decide)]

/-- A name before a blank is read as that name. -/
theorem name?_append (name : IsName spelling) (ends : EndsName rest) :
    name? (spelling.toList ++ rest) = some (spelling, rest) := by
  -- The two spellings are read by the two branches of the reader.
  obtain word | ⟨letters, shape, word, raw⟩ := name
  · have unmarked := word.unmarked ends
    have plain := plainName?_append word ends
    rw [name?, not_quoteStart_of_unmarked unmarked, anyName?.eq_def]
    simp only [Bool.false_eq_true, if_false]
    split
    · -- A hash is no letter, and no blank.
      rename_i behind marker
      rw [marker] at unmarked
      exact absurd rfl ((unmarked.tail (by decide)).head? (show '#' ∈ ['"', '\'', '#'] by decide))
    · simp [plain]
  · -- Behind the raw marker stand letters that may follow it.
    have unmarked := word.unmarked ends
    have plain := plainName?_append word ends
    obtain ⟨c, more, same, -, -⟩ := word
    subst same
    have noHash := unmarked.head? (show '#' ∈ ['"', '\'', '#'] by decide)
    have noQuote := unmarked.head? (show '"' ∈ ['"', '\'', '#'] by decide)
    have noStart : quoteStarts.any (startsWith · ('r' :: '#' :: (c :: more ++ rest))) = false := by
      have hash : '#' ≠ c := by simpa [eq_comm] using noHash
      have quote : '"' ≠ c := by simpa [eq_comm] using noQuote
      simp [quoteStarts, startsWith, List.isPrefixOf, hash, quote]
    have spelled : String.ofList ('r' :: '#' :: c :: more) = spelling := by
      rw [← shape, String.ofList_toList]
    rw [shape]
    simp only [List.cons_append] at noStart plain ⊢
    rw [name?, noStart, anyName?]
    simp only [plain, raw, spelled, Bool.false_eq_true, if_false]

end Lexeme

end KeyedCoding
