import KeyedCoding.Json.Basic
import KeyedCoding.Text.CharClass

/-! Reading JSON text: the first fault is reported with its line and its column in bytes. -/

namespace KeyedCoding.Json

/-- Why a text is not JSON. -/
inductive FaultKind where
  | endInValue
  | endInArray
  | endInObject
  | endInString
  | noColon
  | noArrayEnd
  | noObjectEnd
  | noWord
  | noValue
  | badEscape
  | badNumber
  | numberTooLarge
  | controlCharacter
  | keyNotText
  | loneSurrogate
  | brokenSurrogate
  | trailingComma
  | trailingText
  | tooDeep
  deriving DecidableEq, Repr

namespace FaultKind

/-- The words for a fault. -/
def message : FaultKind → String
  | endInValue => "EOF while parsing a value"
  | endInArray => "EOF while parsing a list"
  | endInObject => "EOF while parsing an object"
  | endInString => "EOF while parsing a string"
  | noColon => "expected `:`"
  | noArrayEnd => "expected `,` or `]`"
  | noObjectEnd => "expected `,` or `\x7d`"
  | noWord => "expected ident"
  | noValue => "expected value"
  | badEscape => "invalid escape"
  | badNumber => "invalid number"
  | numberTooLarge => "number out of range"
  | controlCharacter => "control character (\\u0000-\\u001F) found while parsing a string"
  | keyNotText => "key must be a string"
  | loneSurrogate => "lone leading surrogate in hex escape"
  | brokenSurrogate => "unexpected end of hex escape"
  | trailingComma => "trailing comma"
  | trailingText => "trailing characters"
  | tooDeep => "recursion limit exceeded"

end FaultKind

/-- A fault with its line, from 1, and the number of bytes of the line that were read. -/
structure ReadFault where
  kind : FaultKind
  line : Nat
  column : Nat

namespace ReadFault

/-- The report of a fault. -/
def message (fault : ReadFault) : String :=
  fault.kind.message ++ " at line " ++ toString fault.line ++ " column " ++ toString fault.column

end ReadFault

/-- How much of a text has been read. -/
structure Cursor where
  rest : List Char
  line : Nat
  column : Nat

namespace Cursor

/-- Nothing of the text has been read. -/
def start (text : String) : Cursor := ⟨text.toList, 1, 0⟩

/-- The cursor after the next character. -/
def next (cursor : Cursor) : Cursor :=
  match cursor.rest with
  | [] => cursor
  | '\n' :: rest => ⟨rest, cursor.line + 1, 0⟩
  | c :: rest => ⟨rest, cursor.line, cursor.column + c.utf8Size⟩

/-- The cursor after several characters. -/
def skip (cursor : Cursor) : Nat → Cursor
  | 0 => cursor
  | count + 1 => cursor.next.skip count

/-- The place after a number of bytes. -/
def skipBytes (cursor : Cursor) : Nat → Cursor
  | 0 => cursor
  | count + 1 =>
    match cursor.rest with
    | [] => cursor
    | c :: _ =>
      if c.utf8Size ≤ count + 1 then cursor.next.skipBytes (count + 1 - c.utf8Size)
      else ⟨cursor.rest, cursor.line, cursor.column + (count + 1)⟩
termination_by count => count
decreasing_by
  have := c.utf8Size_pos
  omega

/-- A fault at what has been read. -/
def fault (cursor : Cursor) (kind : FaultKind) : ReadFault := ⟨kind, cursor.line, cursor.column⟩

/-- A fault at the byte that comes next. -/
def faultNext (cursor : Cursor) (kind : FaultKind) : ReadFault :=
  match cursor.rest with
  | [] => cursor.fault kind
  | '\n' :: _ => ⟨kind, cursor.line + 1, 0⟩
  | _ :: _ => ⟨kind, cursor.line, cursor.column + 1⟩

/-- Whether a character may stand between values. -/
def isBlank (c : Char) : Bool := c = ' ' || c = '\n' || c = '\t' || c = '\r'

/-- The cursor after the blanks. -/
def skipBlanks (cursor : Cursor) : Cursor :=
  cursor.skip (cursor.rest.takeWhile isBlank).length

/-- The characters that stand next and pass a test, and the cursor after them. -/
def takeWhile (cursor : Cursor) (test : Char → Bool) : List Char × Cursor :=
  let found := cursor.rest.takeWhile test
  (found, cursor.skip found.length)

end Cursor

/-! Numbers. -/

/-- The value of a decimal digit. -/
def digitValue (c : Char) : Nat := c.toNat - '0'.toNat

/-- The largest whole number of 64 bits without a sign. -/
def maxWord : Nat := 0xffffffffffffffff

/-- The largest exponent that is read exactly. -/
def maxExponent : Nat := 0x7fffffff

/-- A significand of at most 64 bits from digits, how many digits were used, and how many were not. -/
def significand : Nat → Nat → List Char → Nat × Nat × Nat
  | value, used, [] => (value, used, 0)
  | value, used, c :: rest =>
    let grown := value * 10 + digitValue c
    if maxWord < grown then (value, used, rest.length + 1) else significand grown (used + 1) rest

/-- Ten to a power, as a double. -/
def powerOfTen (exponent : Nat) : Float := Float.ofScientific 1 false exponent

/-- Divides by powers of ten in steps that a double can hold. -/
def divideByTen (x : Float) : Nat → Nat → Float
  | 0, _ => x
  | fuel + 1, exponent =>
    if exponent ≤ 308 then x / powerOfTen exponent
    else if x == 0.0 then x
    else divideByTen (x / powerOfTen 308) fuel (exponent - 308)

/-- The double nearest to what the digits and the exponent give step by step; none if it is too large. -/
def scaleByTen? (value : Nat) (exponent : Int) : Option Float :=
  let x := value.toUInt64.toFloat
  if 0 ≤ exponent then
    if exponent ≤ 308 then
      let scaled := x * powerOfTen exponent.toNat
      if scaled.isInf then none else some scaled
    else if value = 0 then some x else none
  else
    -- Every step that finds a number other than zero takes 308 from at most 400 useful powers.
    some (divideByTen x 8 (-exponent).toNat)

/-- Applies a sign. -/
def signed (negative : Bool) (x : Float) : Float := if negative then -x else x

/-- Finishes a number with a fraction or an exponent. -/
def finishFloat (negative : Bool) (value : Nat) (exponent : Int) (cursor : Cursor) :
    Except ReadFault (Json × Cursor) :=
  match scaleByTen? value exponent with
  | some x => .ok (.float (signed negative x), cursor)
  | none => .error (cursor.fault .numberTooLarge)

/-- The value of an exponent's digits and the digits after the one that makes it too large. -/
def exponentValue : Nat → List Char → Nat × Option (List Char)
  | value, [] => (value, none)
  | value, c :: rest =>
    let grown := value * 10 + digitValue c
    if maxExponent < grown then (value, some rest) else exponentValue grown rest

/-- Clamps an exponent to 32 bits. -/
def clampExponent (exponent : Int) : Int :=
  if exponent < -2147483648 then -2147483648 else if 2147483647 < exponent then 2147483647 else exponent

/-- Reads an exponent behind its letter. -/
def readExponent (negative : Bool) (value : Nat) (base : Int) (cursor : Cursor) :
    Except ReadFault (Json × Cursor) :=
  let cursor := cursor.next
  let (down, cursor) := match cursor.rest with
    | '+' :: _ => (false, cursor.next)
    | '-' :: _ => (true, cursor.next)
    | _ => (false, cursor)
  match cursor.rest with
  | [] => .error (cursor.fault .endInValue)
  | c :: _ =>
    if !c.isDigit then .error ((cursor.skipBytes 1).fault .badNumber)
    else
      let (digits, after) := cursor.takeWhile Char.isDigit
      match exponentValue 0 digits with
      | (power, none) =>
        finishFloat negative value (clampExponent (if down then base - power else base + power)) after
      | (_, some unread) =>
        if value ≠ 0 ∧ ¬ down then
          .error ((cursor.skip (digits.length - unread.length)).fault .numberTooLarge)
        else .ok (.float (signed negative 0.0), after)

/-- Whether an exponent comes next. -/
def seesExponent (cursor : Cursor) : Bool :=
  match cursor.rest with
  | 'e' :: _ => true
  | 'E' :: _ => true
  | _ => false

/-- Reads a fraction behind its point. -/
def readFraction (negative : Bool) (value : Nat) (base : Int) (cursor : Cursor) :
    Except ReadFault (Json × Cursor) :=
  let (digits, after) := cursor.next.takeWhile Char.isDigit
  let (value, used, _) := significand value 0 digits
  if digits.isEmpty then
    .error (after.faultNext (if after.rest.isEmpty then .endInValue else .badNumber))
  else if seesExponent after then readExponent negative value (base - used) after
  else finishFloat negative value (base - used) after

/-- Finishes a number without fraction and exponent. -/
def finishWhole (negative : Bool) (value : Nat) : Json :=
  if !negative then .int value
  -- Zero keeps its sign, and what 64 bits cannot hold loses its last digits.
  else if value = 0 ∨ 0x8000000000000000 < value then .float (-(value.toUInt64.toFloat))
  else .int (-(value : Int))

/-- Reads a number behind its sign. -/
def readNumber (negative : Bool) (cursor : Cursor) : Except ReadFault (Json × Cursor) :=
  match cursor.rest with
  | [] => .error (cursor.fault .endInValue)
  | c :: more =>
    if !c.isDigit then .error ((cursor.skipBytes 1).fault .badNumber)
    else if c = '0' ∧ (more.head?.map Char.isDigit).getD false then
      .error (cursor.next.faultNext .badNumber)
    else
      let (digits, after) := cursor.takeWhile Char.isDigit
      let (value, _, unused) := significand 0 0 digits
      match after.rest with
      | '.' :: _ => readFraction negative value unused after
      | _ =>
        if seesExponent after then readExponent negative value unused after
        else if unused = 0 then .ok (finishWhole negative value, after)
        else finishFloat negative value unused after

/-! Strings. -/

/-- The value of four hexadecimal digits. -/
def fourHexDigits? : List Char → Option Nat
  | [a, b, c, d] => do
    return (((← Text.hexValue? a) * 16 + (← Text.hexValue? b)) * 16 + (← Text.hexValue? c)) * 16 +
      (← Text.hexValue? d)
  | _ => none

/-- Reads the four digits of an escape. -/
def readHex (cursor : Cursor) : Except ReadFault (Nat × Cursor) :=
  let bytes := cursor.rest.foldl (fun sum c => sum + c.utf8Size) 0
  if bytes < 4 then .error ((cursor.skip cursor.rest.length).fault .endInString)
  else match fourHexDigits? (cursor.rest.take 4) with
    | some n => .ok (n, cursor.skip 4)
    | none => .error ((cursor.skipBytes 4).fault .badEscape)

/-- Reads a code point behind the letter of its escape; two halves of a pair make one. -/
def readCodePoint (cursor : Cursor) : Except ReadFault (Char × Cursor) := do
  let (high, cursor) ← readHex cursor
  if 0xdc00 ≤ high ∧ high ≤ 0xdfff then .error (cursor.fault .loneSurrogate)
  else if high < 0xd800 ∨ 0xdbff < high then .ok (Char.ofNat high, cursor)
  else match cursor.rest with
    | [] => .error (cursor.fault .endInString)
    | '\\' :: [] => .error (cursor.next.fault .endInString)
    | '\\' :: 'u' :: _ =>
      let (low, cursor) ← readHex (cursor.skip 2)
      if low < 0xdc00 ∨ 0xdfff < low then .error (cursor.fault .loneSurrogate)
      else .ok (Char.ofNat ((high - 0xd800) * 0x400 + (low - 0xdc00) + 0x10000), cursor)
    | '\\' :: _ => .error ((cursor.next.skipBytes 1).fault .brokenSurrogate)
    | _ => .error ((cursor.skipBytes 1).fault .brokenSurrogate)

/-- The character that a short escape stands for. -/
def shortEscape? : Char → Option Char
  | '"' => some '"'
  | '\\' => some '\\'
  | '/' => some '/'
  | 'b' => some '\x08'
  | 'f' => some '\x0c'
  | 'n' => some '\n'
  | 'r' => some '\r'
  | 't' => some '\t'
  | _ => none

/-- Reads the rest of a string; the number bounds the characters. -/
def readString : Nat → Cursor → List Char → Except ReadFault (String × Cursor)
  | 0, cursor, _ => .error (cursor.fault .endInString)
  | fuel + 1, cursor, read =>
    match cursor.rest with
    | [] => .error (cursor.fault .endInString)
    | '"' :: _ => .ok (String.ofList read.reverse, cursor.next)
    | '\\' :: 'u' :: _ => do
      let (c, cursor) ← readCodePoint (cursor.skip 2)
      readString fuel cursor (c :: read)
    | '\\' :: c :: _ =>
      match shortEscape? c with
      | some c => readString fuel (cursor.skip 2) (c :: read)
      | none => .error ((cursor.next.skipBytes 1).fault .badEscape)
    | '\\' :: [] => .error (cursor.next.fault .endInString)
    | c :: _ =>
      if c.toNat < 0x20 then .error (cursor.next.fault .controlCharacter)
      else readString fuel cursor.next (c :: read)

/-! Values. -/

/-- Reads the rest of a word. -/
def readWord (value : Json) : List Char → Cursor → Except ReadFault (Json × Cursor)
  | [], cursor => .ok (value, cursor)
  | expected :: more, cursor =>
    match cursor.rest with
    | [] => .error (cursor.fault .endInValue)
    | c :: _ =>
      if c = expected then readWord value more cursor.next
      else .error ((cursor.skipBytes 1).fault .noWord)

/-- Reads the key of an entry and the colon behind it. -/
def readKey (fuel : Nat) (cursor : Cursor) : Except ReadFault (String × Cursor) := do
  let (key, cursor) ← readString fuel cursor.next []
  let cursor := cursor.skipBlanks
  match cursor.rest with
  | ':' :: _ => return (key, cursor.next)
  | [] => .error (cursor.faultNext .endInObject)
  | _ => .error (cursor.faultNext .noColon)

mutual

/-- Reads a value; the first number bounds the work, the second the nesting. -/
def readValue : Nat → Nat → Cursor → Except ReadFault (Json × Cursor)
  | 0, _, cursor => .error (cursor.fault .endInValue)
  | fuel + 1, depth, cursor =>
    let cursor := cursor.skipBlanks
    match cursor.rest with
    | [] => .error (cursor.faultNext .endInValue)
    | 'n' :: _ => readWord .null ['u', 'l', 'l'] cursor.next
    | 't' :: _ => readWord (.bool true) ['r', 'u', 'e'] cursor.next
    | 'f' :: _ => readWord (.bool false) ['a', 'l', 's', 'e'] cursor.next
    | '-' :: _ => readNumber true cursor.next
    | '"' :: _ => do
      let (text, cursor) ← readString cursor.rest.length cursor.next []
      return (.string text, cursor)
    | '[' :: _ =>
      if depth ≤ 1 then .error (cursor.faultNext .tooDeep)
      else readItems fuel (depth - 1) cursor.next []
    | '\x7b' :: _ =>
      if depth ≤ 1 then .error (cursor.faultNext .tooDeep)
      else readEntries fuel (depth - 1) cursor.next []
    | c :: _ =>
      if c.isDigit then readNumber false cursor else .error (cursor.faultNext .noValue)

/-- Reads the items of an array; the ones before are in reverse. -/
def readItems : Nat → Nat → Cursor → List Json → Except ReadFault (Json × Cursor)
  | 0, _, cursor, _ => .error (cursor.fault .endInArray)
  | fuel + 1, depth, cursor, read =>
    let cursor := cursor.skipBlanks
    match cursor.rest with
    | [] => .error (cursor.faultNext .endInArray)
    | ']' :: _ => .ok (.array read.reverse, cursor.next)
    | c :: _ => do
      let cursor ←
        if read.isEmpty then .ok cursor
        else if c = ',' then
          let cursor := cursor.next.skipBlanks
          match cursor.rest with
          | [] => .error (cursor.faultNext .endInValue)
          | ']' :: _ => .error (cursor.faultNext .trailingComma)
          | _ => .ok cursor
        else .error (cursor.faultNext .noArrayEnd)
      let (value, cursor) ← readValue fuel depth cursor
      readItems fuel depth cursor (value :: read)

/-- Reads the entries of an object; the ones before are in reverse. -/
def readEntries : Nat → Nat → Cursor → List (String × Json) → Except ReadFault (Json × Cursor)
  | 0, _, cursor, _ => .error (cursor.fault .endInObject)
  | fuel + 1, depth, cursor, read =>
    let cursor := cursor.skipBlanks
    match cursor.rest with
    | [] => .error (cursor.faultNext .endInObject)
    | '\x7d' :: _ => .ok (ofPairs read.reverse, cursor.next)
    | c :: _ => do
      let cursor ←
        if read.isEmpty then
          if c = '"' then .ok cursor else .error (cursor.faultNext .keyNotText)
        else if c = ',' then
          let cursor := cursor.next.skipBlanks
          match cursor.rest with
          | [] => .error (cursor.faultNext .endInValue)
          | '"' :: _ => .ok cursor
          | '\x7d' :: _ => .error (cursor.faultNext .trailingComma)
          | _ => .error (cursor.faultNext .keyNotText)
        else .error (cursor.faultNext .noObjectEnd)
      let (key, cursor) ← readKey cursor.rest.length cursor
      let (value, cursor) ← readValue fuel depth cursor
      readEntries fuel depth cursor ((key, value) :: read)

end

/-- How deep arrays and objects may nest, plus one. -/
def maxDepth : Nat := 128

/-- Reads a text that holds one value. -/
def ofText (text : String) : Except ReadFault Json := do
  -- Every nested reading but the first follows a character.
  let (value, cursor) ← readValue (2 * text.length + 4) maxDepth (.start text)
  let cursor := cursor.skipBlanks
  if cursor.rest.isEmpty then return value else .error (cursor.faultNext .trailingText)

end KeyedCoding.Json
