import KeyedCoding.Text.CharClass
import KeyedCoding.Toml.Basic

/-! Reading TOML documents: characters are consumed one after the other, and the first fault ends the reading. -/

namespace KeyedCoding.Toml

/-- A reader of characters. -/
abbrev Scan := StateT (List Char) Option

namespace Scan

variable {α σ : Type}

/-- The characters that have not been consumed. -/
def rest : Scan (List Char) := get

/-- Refuses the text. -/
def fail : Scan α := failure

/-- Consumes a text. -/
def expect (wanted : String) : Scan Unit := do
  let cs ← get
  if wanted.toList.isPrefixOf cs then set (cs.drop wanted.toList.length) else fail

/-- Whether a text comes next. -/
def sees (expected : String) : Scan Bool := return expected.toList.isPrefixOf (← get)

/-- Consumes a text if it comes next, and tells whether it did. -/
def accept (expected : String) : Scan Bool := do
  if ← sees expected then
    expect expected
    return true
  else return false

/-- Consumes the characters that pass a test. -/
def takeWhile (test : Char → Bool) : Scan (List Char) := do
  let cs ← get
  set (cs.dropWhile test)
  return cs.takeWhile test

/-- Consumes a number of characters that pass a test. -/
def take (count : Nat) (test : Char → Bool) : Scan (List Char) := do
  let cs ← get
  let found := cs.take count
  if found.length = count && found.all test then
    set (cs.drop count)
    return found
  else fail

/-- Runs a reader if it succeeds, and otherwise consumes nothing. -/
def attempt (scan : Scan α) : Scan (Option α) := fun cs =>
  match scan cs with
  | some (value, after) => some (some value, after)
  | none => some (none, cs)

/-- Repeats a step until it gives a result; the number bounds the steps. -/
def iterateUpTo (step : σ → Scan (σ ⊕ α)) : Nat → σ → Scan α
  | 0, _ => fail
  | count + 1, state => do
    match ← step state with
    | .inl next => iterateUpTo step count next
    | .inr value => return value

/-- Repeats a step that consumes characters until it gives a result. -/
def iterate (step : σ → Scan (σ ⊕ α)) (start : σ) : Scan α := do
  -- Each step but the last consumes a character.
  iterateUpTo step ((← get).length + 2) start

end Scan

open Scan

/-! Blanks, comments and line ends. -/

/-- Consumes spaces and tabs. -/
def blanks : Scan Unit := do let _ ← takeWhile fun c => c = ' ' || c = '\t'

/-- Whether a character may stand in a comment. -/
def isCommentChar (c : Char) : Bool := c = '\t' || (' ' ≤ c && c ≠ '\x7f')

/-- Consumes a comment if one comes next. -/
def comment : Scan Unit := do
  if ← accept "#" then
    let _ ← takeWhile isCommentChar

/-- Consumes a line end if one comes next, and tells whether it did. -/
def lineEnd? : Scan Bool := do
  if ← accept "\n" then return true else accept "\r\n"

/-- Consumes what may follow a statement on its line, and the end of the line. -/
def lineRest : Scan Unit := do
  blanks
  comment
  if !(← lineEnd?) && !(← rest).isEmpty then fail

/-- Consumes blanks, comments and line ends. -/
def gaps : Scan Unit :=
  iterate (fun _ => do
    blanks
    comment
    if ← lineEnd? then return .inl () else return .inr ()) ()

/-! Strings. -/

/-- Whether a character may stand in a string as it is. -/
def isPlainChar (c : Char) : Bool := isCommentChar c

/-- The number that hexadecimal digits denote. -/
def hexNumber (digits : List Char) : Nat :=
  digits.foldl (fun value c => value * 16 + (Text.hexValue? c).getD 0) 0

/-- Reads a code point of a number of digits. -/
def codePoint (count : Nat) : Scan Char := do
  let digits ← take count fun c => (Text.hexValue? c).isSome
  let value := hexNumber digits
  if value.isValidChar then return Char.ofNat value else fail

/-- Reads an escape behind its backslash. -/
def escape : Scan Char := do
  match ← rest with
  | 'b' :: after => set after; return '\x08'
  | 't' :: after => set after; return '\t'
  | 'n' :: after => set after; return '\n'
  | 'f' :: after => set after; return '\x0c'
  | 'r' :: after => set after; return '\r'
  | '"' :: after => set after; return '"'
  | '\\' :: after => set after; return '\\'
  -- The two forms have a fixed number of digits.
  | 'u' :: after => set after; codePoint 4
  | 'U' :: after => set after; codePoint 8
  | _ => fail

/-- Reads the rest of a string of one line. -/
def basicString : Scan String :=
  iterate (fun read => do
    match ← rest with
    | '"' :: after =>
      set after
      return .inr (String.ofList read.reverse)
    | '\\' :: after =>
      set after
      return .inl ((← escape) :: read)
    | c :: after =>
      -- A line end is no character of such a string.
      if isPlainChar c then
        set after
        return .inl (c :: read)
      else fail
    | [] => fail) []

/-- Reads the rest of a string of one line without escapes. -/
def literalString : Scan String := do
  let found ← takeWhile fun c => isPlainChar c && c ≠ '\''
  expect "'"
  return String.ofList found

/-- Whether the characters after a backslash only break the line. -/
def breaksLine (cs : List Char) : Bool :=
  match cs.dropWhile fun c => c = ' ' || c = '\t' with
  | '\n' :: _ => true
  | '\r' :: '\n' :: _ => true
  | _ => false

/-- Consumes blanks and line ends. -/
def breaks : Scan Unit :=
  iterate (fun _ => do
    blanks
    if ← lineEnd? then return .inl () else return .inr ()) ()

/-- Reads the quotes at which a string of many lines may end; up to two of them belong to it. -/
def closingQuotes (quote : Char) (read : List Char) : Scan (List Char ⊕ String) := do
  let quotes ← takeWhile (· = quote)
  let count := quotes.length
  if count < 3 then return .inl (quotes ++ read)
  else if count ≤ 5 then return .inr (String.ofList (List.replicate (count - 3) quote ++ read).reverse)
  else fail

/-- Reads the rest of a string of many lines. -/
def multilineString (quote : Char) (escapes : Bool) : Scan String := do
  -- The line end right behind the opening quotes is no part of the text.
  let _ ← lineEnd?
  iterate (fun read => do
    -- All line ends are read as the same one.
    if ← lineEnd? then return .inl ('\n' :: read)
    else
      match ← rest with
      | c :: after =>
        if c = quote then closingQuotes quote read
        else if escapes && c = '\\' then
          set after
          -- A backslash at the end of a line takes the blanks behind it away.
          if breaksLine after then
            breaks
            return .inl read
          else return .inl ((← escape) :: read)
        else if isPlainChar c then
          set after
          return .inl (c :: read)
        else fail
      | [] => fail) []

/-- Reads a string. -/
def anyString : Scan String := do
  if ← accept "\"\"\"" then multilineString '"' true
  else if ← accept "'''" then multilineString '\'' false
  else if ← accept "\"" then basicString
  else
    expect "'"
    literalString

/-! Keys. -/

/-- Whether a character may stand in a key without quotes. -/
def isBareKeyChar (c : Char) : Bool := c.isAlphanum || c = '-' || c = '_'

/-- Reads one part of a key. -/
def keyPart : Scan String := do
  if ← accept "\"" then basicString
  else if ← accept "'" then literalString
  else
    let found ← takeWhile isBareKeyChar
    if found.isEmpty then fail else return String.ofList found

/-- How many parts a key may have. -/
def maxKeyParts : Nat := 79

/-- Reads a key: parts with points between them, and blanks around each. -/
def key : Scan (List String) := do
  let parts ← iterate (fun read => do
    blanks
    let part ← keyPart
    blanks
    if ← accept "." then return .inl (part :: read) else return .inr (part :: read).reverse) []
  if parts.length ≤ maxKeyParts then return parts else fail

/-! Numbers and times. -/

/-- Reads digits with single underscores between them. -/
def digits (test : Char → Bool) : Scan (List Char) := do
  let found ← takeWhile fun c => test c || c = '_'
  let doubled := (found.zip (found.drop 1)).any fun pair => pair.1 = '_' && pair.2 = '_'
  let ends := found.head? == some '_' || found.getLast? == some '_'
  if found.isEmpty || doubled || ends then fail else return found.filter (· ≠ '_')

/-- The value of digits in a base. -/
def digitsValue (base : Nat) (found : List Char) : Nat :=
  found.foldl (fun value c => value * base + (Text.hexValue? c).getD 0) 0

/-- An integer that 64 bits can hold. -/
def integerOf (value : Int) : Scan Toml :=
  if -0x8000000000000000 ≤ value && value < 0x8000000000000000 then return .integer value else fail

/-- Reads an integer in a base behind its marker. -/
def markedInteger (base : Nat) (test : Char → Bool) : Scan Toml := do
  integerOf (digitsValue base (← digits test))

/-- Reads a sign and tells whether it is a minus. -/
def sign : Scan Bool := do
  if ← accept "-" then return true
  else
    let _ ← accept "+"
    return false

/-- Reads digits without a leading zero. -/
def wholeDigits : Scan (List Char) := do
  match ← rest with
  | '0' :: after =>
    set after
    return ['0']
  | _ => digits Char.isDigit

/-- Reads a decimal integer. -/
def decimalInteger : Scan Toml := do
  let negative ← sign
  let value : Int := digitsValue 10 (← wholeDigits)
  integerOf (if negative then -value else value)

/-- Reads an exponent; the result counts powers of ten. -/
def exponent : Scan Int := do
  if !(← accept "e") then expect "E"
  let negative ← sign
  let value : Int := digitsValue 10 (← digits Char.isDigit)
  return if negative then -value else value

/-- Whether a decimal number is small enough for a double. -/
def fitsDouble (whole fraction : List Char) (power : Int) : Bool :=
  let significand := digitsValue 10 (whole ++ fraction)
  let shift := power - fraction.length
  -- Far powers need not be computed: the digits cannot make up for them.
  if shift < 0 then
    !(Float.ofScientific significand true (min shift.natAbs (significand.log2 + 400))).isInf
  else if significand = 0 then true
  else if 400 < shift then false
  else !(Float.ofScientific significand false shift.natAbs).isInf

/-- Reads a decimal number with a fraction or an exponent. -/
def decimalFloat : Scan Toml := do
  let _ ← sign
  let whole ← wholeDigits
  let fraction ← if ← accept "." then digits Char.isDigit else pure []
  let power ← attempt exponent
  -- Without both it is a whole number.
  if fraction.isEmpty && power.isNone then fail
  else if fitsDouble whole fraction (power.getD 0) then return .float
  else fail

/-- Reads the name of a number that is not finite. -/
def namedFloat : Scan Toml := do
  let _ ← sign
  if !(← accept "inf") then expect "nan"
  return .float

/-- Reads a number of a fixed count of digits in a range. -/
def field (count low high : Nat) : Scan Nat := do
  let value := digitsValue 10 (← take count Char.isDigit)
  if low ≤ value && value ≤ high then return value else fail

/-- Whether a year has a leap day. -/
def isLeapYear (year : Nat) : Bool := (year % 4 = 0 && year % 100 ≠ 0) || year % 400 = 0

/-- The number of days of a month. -/
def monthDays (year month : Nat) : Nat :=
  if month = 2 then (if isLeapYear year then 29 else 28)
  else if month = 4 || month = 6 || month = 9 || month = 11 then 30
  else 31

/-- Reads a date. -/
def date : Scan Unit := do
  let year ← field 4 0 9999
  expect "-"
  let month ← field 2 1 12
  expect "-"
  let _ ← field 2 1 (monthDays year month)

/-- Reads a time of day. -/
def timeOfDay : Scan Unit := do
  let _ ← field 2 0 23
  expect ":"
  let _ ← field 2 0 59
  expect ":"
  -- A leap second is allowed.
  let _ ← field 2 0 60
  if ← accept "." then
    if (← takeWhile Char.isDigit).isEmpty then fail

/-- Reads the distance of a clock from the standard. -/
def offset : Scan Unit := do
  -- Either letter stands for no distance at all.
  if ← accept "Z" then return ()
  else if ← accept "z" then return ()
  else
    if !(← accept "+") then expect "-"
    let _ ← field 2 0 23
    expect ":"
    let _ ← field 2 0 59

/-- Reads the time that may follow a date. -/
def timeAfterDate : Scan Unit := do
  match ← rest with
  | 'T' :: after => set after
  | 't' :: after => set after
  | _ => expect " "
  timeOfDay
  let _ ← attempt offset

/-- Reads a date, a time, or both. -/
def moment : Scan Toml := do
  match ← attempt date with
  | some _ =>
    let _ ← attempt timeAfterDate
    return .time
  | none =>
    timeOfDay
    return .time

/-- Reads a number or a time. -/
def number : Scan Toml := do
  if ← accept "0x" then markedInteger 16 fun c => (Text.hexValue? c).isSome
  else if ← accept "0o" then markedInteger 8 fun c => '0' ≤ c && c ≤ '7'
  else if ← accept "0b" then markedInteger 2 fun c => c = '0' || c = '1'
  else moment <|> decimalFloat <|> namedFloat <|> decimalInteger

/-! Values. -/

/-- Reads an array behind its bracket. -/
def items (value : Scan Toml) : Scan Toml :=
  iterate (fun read => do
    gaps
    if ← accept "]" then return .inr (.array read.reverse)
    else
      let item ← value
      gaps
      -- A comma may stand behind the last item.
      if ← accept "," then return .inl (item :: read)
      else
        expect "]"
        return .inr (.array (item :: read).reverse)) []

/-- Adds a value under a key to a table. -/
def addKey (path : List String) (value : Toml) (entries : Entries) : Option Entries :=
  match path.reverse with
  | [] => none
  | last :: front => entries.addDotted last value front.reverse

/-- Reads a key and its value. -/
def assignment (value : Scan Toml) : Scan (List String × Toml) := do
  let path ← key
  expect "="
  blanks
  return (path, ← value)

/-- Reads an inline table behind its brace. -/
def inlineEntries (value : Scan Toml) : Scan Toml := do
  blanks
  if ← accept "\x7d" then return .inlineTable []
  else
    iterate (fun entries => do
      let (path, item) ← assignment value
      match addKey path item entries with
      | none => fail
      | some entries =>
        blanks
        -- No comma may stand behind the last entry, and no line end between them.
        if ← accept "," then return .inl entries
        else
          expect "\x7d"
          return .inr (.inlineTable entries)) []

/-- Reads a value that nests no others. -/
def simpleValue : Scan Toml := do
  match ← rest with
  | '"' :: _ => return .text (← anyString)
  | '\'' :: _ => return .text (← anyString)
  | 't' :: _ =>
    expect "true"
    return .bool true
  | 'f' :: _ =>
    expect "false"
    return .bool false
  | _ => number

/-- Reads a value in which arrays and inline tables nest no deeper than given. -/
def value : Nat → Scan Toml
  | 0 => simpleValue
  | depth + 1 => do
    if ← accept "[" then items (value depth)
    else if ← accept "\x7b" then inlineEntries (value depth)
    else simpleValue

/-- How deep arrays and inline tables may nest. -/
def maxDepth : Nat := 79

/-! Documents. -/

/-- What has been read of a document: the tables, and the path of the one that takes the next keys. -/
structure Document where
  path : List String := []
  root : Entries := []

namespace Document

/-- Opens the table of a header, or one more table of an array. -/
def openHeader (document : Document) (path : List String) (isItem : Bool) : Option Document :=
  match path.reverse with
  | [] => none
  | last :: front => do
    let change := if isItem then Entries.openItem last else Entries.openTable last
    return ⟨path, ← document.root.changeAt change front.reverse⟩

/-- Adds a value under a key to the open table. -/
def add (document : Document) (path : List String) (value : Toml) : Option Document := do
  return { document with root := ← document.root.changeAt (addKey path value) document.path }

end Document

/-- Reads a header behind its bracket. -/
def header (document : Document) : Scan Document := do
  -- Two brackets open an item of a list of tables.
  let isItem ← accept "["
  let path ← key
  expect (if isItem then "]]" else "]")
  lineRest
  match document.openHeader path isItem with
  | some document => return document
  | none => fail

/-- Reads a key with its value. -/
def entry (document : Document) : Scan Document := do
  let (path, item) ← assignment (value maxDepth)
  lineRest
  match document.add path item with
  | some document => return document
  | none => fail

/-- Reads a line, or a statement of several lines. -/
def statement (document : Document) : Scan (Document ⊕ Entries) := do
  blanks
  match ← rest with
  | [] => return .inr document.root
  | '[' :: after =>
    set after
    return .inl (← header document)
  | c :: _ =>
    -- A line may be empty or hold only a comment.
    if c = '#' || c = '\n' || c = '\r' then
      lineRest
      return .inl document
    else return .inl (← entry document)

/-- Drops the mark that may stand before a text. -/
def dropMark (cs : List Char) : List Char :=
  match cs with
  | c :: rest => if c.toNat = 0xfeff then rest else cs
  | [] => []

/-- Reads a document. -/
def ofText? (text : String) : Option Entries :=
  ((iterate statement {}).run (dropMark text.toList)).map (·.1)

end KeyedCoding.Toml
