import KeyedCoding.Text.CharClass

/-! Lexemes: where a comment, a name, a number or a quoted literal ends. -/

namespace KeyedCoding.Lexeme

open Text

/-- The characters that `rest` lacks at the front of `cs`. -/
def consumed (cs rest : List Char) : List Char := cs.take (cs.length - rest.length)

/-- Whether a text starts with another. -/
def startsWith (start : String) (cs : List Char) : Bool := start.toList.isPrefixOf cs

/-- The text after a block comment whose nesting is `depth`; comments nest. -/
def blockCommentEnd? : Nat → List Char → Option (List Char)
  | _, [] => none
  | depth, '/' :: '*' :: rest => blockCommentEnd? (depth + 1) rest
  | depth, '*' :: '/' :: rest => if depth ≤ 1 then some rest else blockCommentEnd? (depth - 1) rest
  | depth, _ :: rest => blockCommentEnd? depth rest

/-- Whether a line comment starts here that documents nothing. -/
def startsLineComment (cs : List Char) : Bool :=
  startsWith "//" cs && (!startsWith "///" cs || startsWith "////" cs) && !startsWith "//!" cs

/-- Whether a block comment starts here that documents nothing. -/
def startsBlockComment (cs : List Char) : Bool :=
  startsWith "/*" cs && (!startsWith "/**" cs || startsWith "/***" cs) && !startsWith "/*!" cs

/-- The text after one separator or ordinary comment. -/
def triviaEnd? (cs : List Char) : Option (List Char) :=
  if startsLineComment cs then some (cs.dropWhile (· ≠ '\n'))
  else if startsWith "/**/" cs then some (cs.drop 4)
  else if startsBlockComment cs then blockCommentEnd? 0 cs
  else match cs with
    | c :: rest => if isSeparator c then some rest else none
    | [] => none

/-- The text after all separators and ordinary comments. -/
def skipTrivia (cs : List Char) : List Char :=
  match triviaEnd? cs with
  | none => cs
  -- Every piece of trivia has a character, so the guard only serves termination.
  | some rest => if _h : rest.length < cs.length then skipTrivia rest else rest
termination_by cs.length

/-- The text up to the end of the line, and what follows it. -/
def splitLine (cs : List Char) : List Char × List Char :=
  let line := cs.takeWhile (· ≠ '\n')
  let rest := cs.dropWhile (· ≠ '\n')
  -- A carriage return before the line feed belongs to the line end.
  match line.getLast?, rest with
  | some '\r', _ :: _ => (line.dropLast, rest)
  | _, _ => (line, rest)

/-- The content of a documentation comment, whether it documents its owner, and what follows. -/
def docComment? (cs : List Char) : Option (List Char × Bool × List Char) :=
  let block (owner : Bool) : Option (List Char × Bool × List Char) := do
    let rest ← blockCommentEnd? 0 cs
    let written := consumed cs rest
    -- The comment is written with three characters in front and two behind.
    return ((written.drop 3).take (written.length - 5), owner, rest)
  let line (owner : Bool) : Option (List Char × Bool × List Char) :=
    let (content, rest) := splitLine (cs.drop 3)
    some (content, owner, rest)
  if startsWith "//!" cs then line true
  else if startsWith "/*!" cs then block true
  -- Four slashes, or three asterisks, are a plain comment again.
  else if startsWith "///" cs then if startsWith "////" cs then none else line false
  else if startsWith "/**" cs && !startsWith "/***" cs then block false
  else none

/-- Whether a carriage return stands without its line feed. -/
def hasBareReturn : List Char → Bool
  | [] => false
  | '\r' :: '\n' :: rest => hasBareReturn rest
  | '\r' :: _ => true
  | _ :: rest => hasBareReturn rest

/-- The characters of a name and what follows it, the raw marker apart. -/
def plainName? : List Char → Option (List Char × List Char)
  | [] => none
  | c :: rest =>
    if isNameStart c then
      some (c :: rest.takeWhile isNameContinue, rest.dropWhile isNameContinue)
    else none

/-- Names that have no raw form. -/
def rawless : List String := ["_", "super", "self", "Self", "crate"]

/-- The spelling of a name, which may be raw, and what follows it. -/
def anyName? (cs : List Char) : Option (String × List Char) :=
  match cs with
  | 'r' :: '#' :: rest =>
    match plainName? rest with
    | some (letters, after) =>
      -- Some words may not be raw names.
      if rawless.contains (String.ofList letters) then none
      else some (String.ofList ('r' :: '#' :: letters), after)
    | none => none
  | _ => (plainName? cs).map fun found => (String.ofList found.1, found.2)

/-- Beginnings that belong to a quoted literal and never to a name. -/
def quoteStarts : List String :=
  ["r\"", "r#\"", "r##", "b\"", "b'", "br\"", "br#", "c\"", "cr\"", "cr#"]

/-- The spelling of a name token and what follows it. -/
def name? (cs : List Char) : Option (String × List Char) :=
  if quoteStarts.any (startsWith · cs) then none else anyName? cs

/-- What follows a literal once its suffix is skipped. -/
def skipSuffix (cs : List Char) : List Char := ((plainName? cs).map (·.2)).getD cs

/-- What a quoted literal denotes: text, bytes, or text that a null ends. -/
inductive QuoteKind where
  | text
  | bytes
  | nullEnded
  deriving DecidableEq

/-- How far the reading of a quoted literal has come. -/
inductive QuoteState where
  | plain
  | carriage
  | escape
  | hexFirst
  | hexSecond (high : Nat)
  | codeOpen
  | code (digits value : Nat)
  | lineEnd
  | lineCarriage
  deriving DecidableEq

/-- Whether a character may stand unescaped in a quoted literal. -/
def QuoteKind.admits (kind : QuoteKind) (c : Char) : Bool :=
  match kind with
  | .text => true
  | .bytes => c.toNat < 0x80
  | .nullEnded => c ≠ '\x00'

/-- Whether a number is a code point of a character. -/
def isScalar (n : Nat) : Bool := n < 0xd800 || (0xe000 ≤ n && n < 0x110000)

/-- Reads one character outside an escape. -/
def stepPlain (kind : QuoteKind) (c : Char) : Option QuoteState :=
  if c = '\\' then some .escape
  else if c = '\r' then some .carriage
  else if kind.admits c then some .plain
  else none

/-- Reads the character after a backslash. -/
def stepEscape (kind : QuoteKind) (c : Char) : Option QuoteState :=
  if c = 'x' then some .hexFirst
  -- The three kinds of quoted text admit different escapes.
  else if c = 'u' then if kind = .bytes then none else some .codeOpen
  else if c = '0' then if kind = .nullEnded then none else some .plain
  else if ['n', 'r', 't', '\\', '\'', '"'].contains c then some .plain
  else if c = '\n' then some .lineEnd
  else if c = '\r' then some .lineCarriage
  else none

/-- Reads one character of a quoted literal; none if it is malformed. -/
def QuoteState.step (kind : QuoteKind) (state : QuoteState) (c : Char) : Option QuoteState :=
  match state with
  | .plain => stepPlain kind c
  | .carriage => if c = '\n' then some .plain else none
  | .escape => stepEscape kind c
  | .hexFirst => do
    let high ← hexValue? c
    -- Text admits only ASCII in this form.
    if kind = .text ∧ 8 ≤ high then none else some (.hexSecond high)
  | .hexSecond high => do
    let low ← hexValue? c
    if kind = .nullEnded ∧ high = 0 ∧ low = 0 then none else some .plain
  | .codeOpen => if c = '\x7b' then some (.code 0 0) else none
  | .code digits value =>
    if c = '_' then if 0 < digits then some (.code digits value) else none
    else if c = '\x7d' then
      if 0 < digits ∧ isScalar value ∧ ¬(kind = .nullEnded ∧ value = 0) then some .plain else none
    else do
      let digit ← hexValue? c
      if digits < 6 then some (.code (digits + 1) (value * 16 + digit)) else none
  | .lineEnd =>
    if c = ' ' ∨ c = '\t' ∨ c = '\n' then some .lineEnd
    else if c = '\r' then some .lineCarriage
    else stepPlain kind c
  | .lineCarriage => if c = '\n' then some .lineEnd else none

/-- What follows the closing quote of a quoted literal. -/
def quotedEnd? (kind : QuoteKind) : QuoteState → List Char → Option (List Char)
  | _, [] => none
  | state, c :: rest =>
    -- A quote closes unless it is part of an escape.
    if c = '"' ∧ (state = .plain ∨ state = .lineEnd) then some rest
    else match state.step kind c with
      | some next => quotedEnd? kind next rest
      | none => none

/-- What follows an escape inside a character literal. -/
def escapeEnd? (kind : QuoteKind) : QuoteState → List Char → Option (List Char)
  | .plain, cs => some cs
  -- Only a string may go on in the next line.
  | .lineEnd, _ => none
  | .lineCarriage, _ => none
  | _, [] => none
  | state, c :: rest =>
    match state.step kind c with
    | some next => escapeEnd? kind next rest
    | none => none

/-- What follows a character literal whose opening quote has been read. -/
def characterEnd? (kind : QuoteKind) (cs : List Char) : Option (List Char) := do
  let rest ← match cs with
    | '\\' :: rest => escapeEnd? kind .escape rest
    | c :: rest => if kind.admits c then some rest else none
    | [] => none
  -- Exactly one character or escape stands between the quotes.
  match rest with
  | '\'' :: rest => some rest
  | _ => none

/-- What follows the closing quote and hashes of a raw literal. -/
def rawBodyEnd? (kind : QuoteKind) (hashes : List Char) : Bool → List Char → Option (List Char)
  | _, [] => none
  | afterReturn, c :: rest =>
    -- A carriage return belongs to a line end or is refused.
    if afterReturn then if c = '\n' then rawBodyEnd? kind hashes false rest else none
    else if c = '"' ∧ hashes.isPrefixOf rest then some (rest.drop hashes.length)
    else if c = '\r' then rawBodyEnd? kind hashes true rest
    else if kind.admits c then rawBodyEnd? kind hashes false rest
    else none

/-- What follows a raw literal whose marker has been read; at most 255 hashes guard it. -/
def rawEnd? (kind : QuoteKind) (cs : List Char) : Option (List Char) :=
  let hashes := cs.takeWhile (· = '#')
  match cs.dropWhile (· = '#') with
  | '"' :: body => if hashes.length ≤ 255 then rawBodyEnd? kind hashes false body else none
  | _ => none

/-- What follows a quoted literal and its suffix. -/
def quoteEnd? (cs : List Char) : Option (List Char) :=
  let rest? := match cs with
    -- The prefix tells the kind, and hashes or a quote follow it.
    | '"' :: rest => quotedEnd? .text .plain rest
    | 'r' :: rest => rawEnd? .text rest
    | 'b' :: '"' :: rest => quotedEnd? .bytes .plain rest
    | 'b' :: 'r' :: rest => rawEnd? .bytes rest
    | 'c' :: '"' :: rest => quotedEnd? .nullEnded .plain rest
    | 'c' :: 'r' :: rest => rawEnd? .nullEnded rest
    | 'b' :: '\'' :: rest => characterEnd? .bytes rest
    | '\'' :: rest => characterEnd? .text rest
    | _ => none
  rest?.map skipSuffix

/-- Whether a character may stand in the digits of a decimal number. -/
def isDigitOrGap (c : Char) : Bool := c.isDigit || c == '_'

/-- What follows the exponent of a number, given what has been seen of it. -/
def exponentEnd? (signed valued : Bool) : List Char → Option (List Char)
  | [] => if valued then some [] else none
  | c :: rest =>
    if c = '+' ∨ c = '-' then
      -- A sign stands in front of the digits; behind them it is an operator.
      if valued then some (c :: rest) else if signed then none else exponentEnd? true false rest
    else if c.isDigit then exponentEnd? signed true rest
    else if c = '_' then exponentEnd? signed valued rest
    else if valued then some (c :: rest) else none

/-- What follows the digits of a number with a point or an exponent. -/
def floatDigitsEnd? (cs : List Char) : Option (List Char) :=
  if !(cs.head?.map Char.isDigit).getD false then none
  else match cs.dropWhile isDigitOrGap with
    | '.' :: fraction =>
      -- A second point or a name makes the point an operator.
      if (fraction.head?.map fun c => c == '.' || isNameStart c).getD false then none
      else
        let rest := fraction.dropWhile isDigitOrGap
        match rest with
        -- An exponent without digits is a suffix.
        | 'e' :: exponent => some ((exponentEnd? false false exponent).getD rest)
        | 'E' :: exponent => some ((exponentEnd? false false exponent).getD rest)
        | _ => some rest
    | 'e' :: exponent => exponentEnd? false false exponent
    | 'E' :: exponent => exponentEnd? false false exponent
    | _ => none

/-- What follows the digits of a whole number in a base. -/
def wholeDigitsEnd? (base : Nat) : Bool → List Char → Option (List Char)
  | empty, [] => if empty then none else some []
  | empty, c :: rest =>
    let stop := if empty then none else some (c :: rest)
    if c = '_' then if empty ∧ base = 10 then none else wholeDigitsEnd? base empty rest
    else match hexValue? c with
      | none => stop
      | some digit =>
        if digit < base then wholeDigitsEnd? base false rest
        -- A decimal digit beyond the base is malformed, a letter ends the digits.
        else if digit < 10 then none else stop

/-- What follows the digits of a whole number. -/
def wholeEnd? (cs : List Char) : Option (List Char) :=
  match cs with
  | '0' :: 'x' :: rest => wholeDigitsEnd? 16 true rest
  | '0' :: 'o' :: rest => wholeDigitsEnd? 8 true rest
  | '0' :: 'b' :: rest => wholeDigitsEnd? 2 true rest
  | _ => wholeDigitsEnd? 10 true cs

/-- What follows a number once its suffix is skipped; a number ends where a name cannot go on. -/
def numberTail? (cs : List Char) : Option (List Char) :=
  let rest := skipSuffix cs
  if (rest.head?.map isNameContinue).getD false then none else some rest

/-- What follows a number. -/
def numberEnd? (cs : List Char) : Option (List Char) :=
  ((floatDigitsEnd? cs).bind numberTail?).orElse fun _ => (wholeEnd? cs).bind numberTail?

/-- What follows a literal. -/
def literalEnd? (cs : List Char) : Option (List Char) :=
  (quoteEnd? cs).orElse fun _ => numberEnd? cs

/-- The characters of which operators are made. -/
def operatorChars : List Char := "~!@#$%^&*-=+|;:,<.>/?'".toList

/-- Whether punctuation starts here; a comment does not. -/
def startsPunct (cs : List Char) : Bool :=
  !startsWith "//" cs && !startsWith "/*" cs && (cs.head?.map operatorChars.contains).getD false

end KeyedCoding.Lexeme
