import KeyedCoding.Text.CharClass

/-! Quoted text: how a string is written between double quotes, and read back. -/

namespace KeyedCoding.Text.Quoted

/-- The escape of a character by its code point. -/
def codePointEscape (c : Char) : List Char :=
  -- The digits stand between braces, without leading zeros.
  ['\\', 'u', '\x7b'] ++ hexDigits c.toNat ++ ['\x7d']

/-- One character of quoted text, apart from the null character. -/
def escapeChar (c : Char) : List Char :=
  if c = '\t' then ['\\', 't']
  else if c = '\r' then ['\\', 'r']
  else if c = '\n' then ['\\', 'n']
  else if c = '"' then ['\\', '"']
  else if c = '\\' then ['\\', '\\']
  -- A character that attaches to the one before it could not be seen alone.
  else if isGraphemeExtend c then codePointEscape c
  else if isPrintable c then [c]
  else codePointEscape c

/-- Whether a character is an octal digit. -/
def isOctalDigit (c : Char) : Bool := '0' ≤ c && c ≤ '7'

/-- The body of a literal: a null before an octal digit is written in hexadecimal. -/
def escapeLiteral : List Char → List Char
  | [] => []
  | c :: rest =>
    -- A null followed by a digit would otherwise read as a longer escape.
    if c = '\x00' then
      (if (rest.head?.map isOctalDigit).getD false then ['\\', 'x', '0', '0'] else ['\\', '0'])
        ++ escapeLiteral rest
    else escapeChar c ++ escapeLiteral rest

/-- The body of a displayed value: a null is always written short. -/
def escapeDisplayed : List Char → List Char
  | [] => []
  | c :: rest =>
    (if c = '\x00' then ['\\', '0'] else escapeChar c) ++ escapeDisplayed rest

/-- The literal that denotes a text. -/
def literal (text : String) : String :=
  String.ofList ('"' :: escapeLiteral text.toList ++ ['"'])

/-- A text as a value display shows it. -/
def displayed (text : String) : String :=
  String.ofList ('"' :: escapeDisplayed text.toList ++ ['"'])

/-- Drops the blanks that follow an escaped line end. -/
def skipBlanks : List Char → List Char
  | [] => []
  | c :: rest => if c = ' ' ∨ c = '\t' ∨ c = '\n' ∨ c = '\r' then skipBlanks rest else c :: rest

/-- Skipping blanks never lengthens a text. -/
theorem skipBlanks_length_le (cs : List Char) : (skipBlanks cs).length ≤ cs.length := by
  -- Each step drops one character or stops.
  induction cs with
  | nil => simp [skipBlanks]
  | cons c rest ih =>
    simp only [skipBlanks]
    split
    · simp only [List.length_cons]; omega
    · simp

/-- Reads the digits of a braced code point escape; underscores are ignored. -/
def readCodePoint : Nat → List Char → Option (Char × List Char)
  | _, [] => none
  | value, c :: rest =>
    -- The braces may hold any number of digits and underscores.
    if c = '\x7d' then some (Char.ofNat value, rest)
    else if c = '_' then readCodePoint value rest
    else match hexValue? c with
      | some digit => readCodePoint (value * 16 + digit) rest
      | none => none

/-- Reading a code point escape consumes characters. -/
theorem readCodePoint_length_lt {value : Nat} {cs : List Char} {c : Char} {rest : List Char}
    (read : readCodePoint value cs = some (c, rest)) : rest.length < cs.length := by
  -- The closing brace is consumed at the latest.
  induction cs generalizing value with
  | nil => simp [readCodePoint] at read
  | cons head tail ih =>
    simp only [readCodePoint] at read
    split at read
    · simp only [Option.some.injEq, Prod.mk.injEq] at read
      simp [← read.2]
    · split at read
      · have := ih read
        simp only [List.length_cons]; omega
      · split at read
        · have := ih read
          simp only [List.length_cons]; omega
        · simp at read

/-- The text between the quotes of an escaped literal, up to its closing quote. -/
def unescape (cs : List Char) : List Char :=
  match cs with
  | [] => []
  | '"' :: _ => []
  | '\\' :: 'x' :: a :: b :: rest =>
    Char.ofNat ((hexValue? a).getD 0 * 16 + (hexValue? b).getD 0) :: unescape rest
  | '\\' :: 'u' :: '\x7b' :: rest =>
    match read : readCodePoint 0 rest with
    | some (c, rest') =>
      have := readCodePoint_length_lt read
      c :: unescape rest'
    | none => []
  | '\\' :: 'n' :: rest => '\n' :: unescape rest
  | '\\' :: 'r' :: rest => '\r' :: unescape rest
  | '\\' :: 't' :: rest => '\t' :: unescape rest
  | '\\' :: '0' :: rest => '\x00' :: unescape rest
  | '\\' :: '\n' :: rest =>
    have := skipBlanks_length_le rest
    -- Behind a line end the blanks of the next line are skipped.
    unescape (skipBlanks rest)
  | '\\' :: '\r' :: rest =>
    have := skipBlanks_length_le rest
    unescape (skipBlanks rest)
  | '\\' :: c :: rest => c :: unescape rest
  -- A line end of two characters is read as one.
  | '\r' :: '\n' :: rest => '\n' :: unescape rest
  | c :: rest => c :: unescape rest
termination_by cs.length
decreasing_by
  all_goals simp only [List.length_cons]
  all_goals omega

/-- The text of a raw literal after its marker: the characters between the outer quotes. -/
def unquoteRaw (cs : List Char) : List Char :=
  -- The last quote closes the literal: neither the hashes nor a suffix holds one.
  (((cs.dropWhile (· = '#')).drop 1).reverse.dropWhile (· ≠ '"')).drop 1 |>.reverse

/-- The text that a string literal denotes; none if the literal is not a string. -/
def value? (written : String) : Option String :=
  match written.toList with
  | '"' :: body => some (String.ofList (unescape body))
  | 'r' :: body => some (String.ofList (unquoteRaw body))
  | _ => none

/-- The suffix of a string literal: what follows its last quote and hashes. -/
def suffix (written : String) : String :=
  -- The closing hashes of a raw literal do not belong to the suffix.
  String.ofList ((written.toList.reverse.takeWhile (· ≠ '"')).reverse.dropWhile (· = '#'))

end KeyedCoding.Text.Quoted
