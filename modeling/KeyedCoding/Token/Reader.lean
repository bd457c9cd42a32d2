import KeyedCoding.Token.Basic

/-! Reading trees from tokens: a reader consumes the tokens of one group and reports the first fault. -/

namespace KeyedCoding

/-- Why some tokens cannot be read, and where. -/
structure Fault where
  message : String
  pos : Position
  deriving DecidableEq, Repr, Inhabited

/-- What a reader has before it: tokens, type heads noted so far, and a leftover in a closed group. -/
structure Source where
  rest : List Token
  heads : List String := []
  stray : Option Fault := none

/-- A reader of tokens; it knows where the group that it reads from ends. -/
abbrev Reader := ReaderT Position (StateT Source (Except Fault))

/-! Looking ahead. -/

namespace Look

/-- Words that a plain name may not be. -/
def reserved : List String :=
  ["_", "abstract", "as", "async", "await", "become", "box", "break", "const", "continue",
   "crate", "do", "dyn", "else", "enum", "extern", "false", "final", "fn", "for", "if", "impl",
   "in", "let", "loop", "macro", "match", "mod", "move", "mut", "override", "priv", "pub", "ref",
   "return", "Self", "self", "static", "struct", "super", "trait", "true", "try", "type", "typeof",
   "unsafe", "unsized", "use", "virtual", "where", "while", "yield"]

/-- The tokens after an operator; each character but its last is joint with the next. -/
def afterChars? : List Char → List Token → Option (List Token)
  | [c], .punct ch _ _ :: rest => if c = ch then some rest else none
  | c :: more, .punct ch joint _ :: rest =>
    if c = ch ∧ joint = true then afterChars? more rest else none
  | _, _ => none

/-- Whether an operator comes next. -/
def symbol (spelling : String) (tokens : List Token) : Bool :=
  (afterChars? spelling.toList tokens).isSome

/-- Whether a given word comes next. -/
def word (spelling : String) : List Token → Bool
  | .name found _ :: _ => found == spelling
  | _ => false

/-- Whether any word comes next. -/
def anyWord : List Token → Bool
  | .name _ _ :: _ => true
  | _ => false

/-- Whether a name comes next that is not reserved. -/
def name : List Token → Bool
  | .name found _ :: _ => !reserved.contains found
  | _ => false

/-- Whether a lifetime comes next. -/
def lifetime : List Token → Bool
  | .lifetime _ _ :: _ => true
  | _ => false

/-- Whether a group in given brackets comes next. -/
def group (delim : Delimiter) : List Token → Bool
  | .group found _ _ _ :: _ => found == delim
  | _ => false

/-- Whether the text of a literal is a number. -/
def isNumber (text : String) : Bool := (text.toList.head?.map Char.isDigit).getD false

/-- Whether the text of a literal is a string. -/
def isText (text : String) : Bool :=
  match text.toList with
  | '"' :: _ => true
  | 'r' :: _ => true
  | _ => false

/-- Whether a string literal comes next. -/
def text : List Token → Bool
  | .literal written _ :: _ => isText written
  | _ => false

/-- The tokens after a literal: truth values and signed numbers are literals, too. -/
def afterLiteral? : List Token → Option (List Token)
  | .literal _ _ :: rest => some rest
  | .name found _ :: rest => if found == "true" || found == "false" then some rest else none
  | .punct '-' _ _ :: .literal written _ :: rest => if isNumber written then some rest else none
  | _ => none

/-- Whether a literal comes next. -/
def literal (tokens : List Token) : Bool := (afterLiteral? tokens).isSome

end Look

namespace Reader

variable {α β σ : Type}

/-- The tokens that have not been consumed. -/
def rest : Reader (List Token) := return (← get).rest

/-- Whether the group is at its end. -/
def atEnd : Reader Bool := return (← get).rest.isEmpty

/-- Whether the tokens to come pass a test. -/
def sees (test : List Token → Bool) : Reader Bool := return test (← get).rest

/-- The place of the next token, or of the end of the group. -/
def here : Reader Position := do
  match (← get).rest with
  | [] => read
  | token :: _ => return token.pos

/-- Fails at a place. -/
def failAt (pos : Position) (message : String) : Reader α := throw ⟨message, pos⟩

/-- Fails at the next token; at the end of the group the message says so. -/
def failHere (message : String) : Reader α := do
  match (← get).rest with
  | [] => failAt (← read) ("unexpected end of input, " ++ message)
  | token :: _ => failAt token.pos message

/-- The text that lists what could have come next. -/
def alternatives : List String → String
  | [] => "unexpected token"
  | [a] => "expected " ++ a
  | [a, b] => "expected " ++ a ++ " or " ++ b
  | choices => "expected one of: " ++ String.intercalate ", " choices

/-- Fails with the list of what could have come next. -/
def failExpecting (choices : List String) : Reader α := failHere (alternatives choices)

/-- Goes on with the given tokens. -/
def setRest (tokens : List Token) : Reader Unit := modify fun source => { source with rest := tokens }

/-- Consumes the next token, whatever it is. -/
def skip : Reader Unit := do setRest ((← rest).drop 1)

/-- Runs a reader if it succeeds, and otherwise leaves everything as it was. -/
def optional (reader : Reader α) : Reader (Option α) := fun scope source =>
  match reader scope source with
  | .ok (value, after) => .ok (some value, after)
  | .error _ => .ok (none, source)

/-- What a reader would give and leave, without consuming anything. -/
def ahead (reader : Reader α) : Reader (Option (α × List Token)) := fun scope source =>
  match reader scope source with
  | .ok (value, after) => .ok (some (value, after.rest), source)
  | .error _ => .ok (none, source)

/-- Consumes an operator. -/
def symbol (spelling : String) : Reader (List Token) := do
  let pos ← here
  match Look.afterChars? spelling.toList (← rest) with
  | some after =>
    setRest after
    return Token.symbolAt pos spelling
  | none => failAt pos ("expected `" ++ spelling ++ "`")

/-- Consumes an operator if it comes next. -/
def symbol? (spelling : String) : Reader (List Token) := do
  if ← sees (Look.symbol spelling) then symbol spelling else return []

/-- Consumes a given word. -/
def word (spelling : String) : Reader Token := do
  match ← rest with
  | .name found pos :: after =>
    if found == spelling then
      setRest after
      return .name found pos
    else failHere ("expected `" ++ spelling ++ "`")
  | _ => failHere ("expected `" ++ spelling ++ "`")

/-- Consumes a given word if it comes next. -/
def word? (spelling : String) : Reader (List Token) := do
  if ← sees (Look.word spelling) then return [← word spelling] else return []

/-- Consumes any word, reserved or not. -/
def anyName : Reader Name := do
  match ← rest with
  | .name found pos :: after =>
    setRest after
    return ⟨found, pos⟩
  | _ => failHere "expected ident"

/-- Consumes a name that is not reserved. -/
def name : Reader Name := do
  match ← rest with
  | .name found pos :: after =>
    -- Every reserved word is refused here, also those that are reserved for later.
    if Look.reserved.contains found then
      failHere ("expected identifier, found keyword `" ++ found ++ "`")
    else
      setRest after
      return ⟨found, pos⟩
  | _ => failHere "expected identifier"

/-- Consumes a lifetime. -/
def lifetime : Reader Token := do
  match ← rest with
  | .lifetime found pos :: after =>
    setRest after
    return .lifetime found pos
  | _ => failHere "expected lifetime"

/-- Consumes a literal; the sign of a number is a token of its own. -/
def literal : Reader (List Token) := do
  match ← rest with
  | .literal written pos :: after =>
    setRest after
    return [.literal written pos]
  -- The two words for truth values are lexed as names.
  | .name found pos :: after =>
    if found == "true" || found == "false" then
      setRest after
      return [.name found pos]
    else failHere "expected literal"
  -- The sign is written apart from the number, and both make one literal.
  | .punct '-' _ pos :: .literal written at_ :: after =>
    if Look.isNumber written then
      setRest after
      return [.punct '-' false pos, .literal written at_]
    else failHere "expected literal"
  | _ => failHere "expected literal"

/-- Consumes a string literal, as written. -/
def text : Reader Token := do
  match ← rest with
  | .literal written pos :: after =>
    if Look.isText written then
      setRest after
      return .literal written pos
    else failHere "expected string literal"
  | _ => failHere "expected string literal"

/-- The report of tokens that are left at the end of a group. -/
def leftover (delim : Delimiter) : List Token → Option Fault
  | [] => none
  | token :: _ =>
    some ⟨"unexpected token, expected `" ++ delim.closing.toString ++ "`", token.pos⟩

/-- Reads the content of a group; what it leaves is remembered and reported at the very end. -/
def within (delim : Delimiter) (content : Reader α) : Reader (α × Position × Position) := do
  match ← rest with
  | .group found body opened closed :: after =>
    if found = delim then
      -- The place of the end inside is that of the closing delimiter.
      setRest body
      let value ← withReader (fun _ => closed) content
      modify fun source =>
        -- Only the first leftover is remembered: it stands before those of the outer groups.
        { source with rest := after, stray := source.stray.orElse fun _ => leftover delim source.rest }
      return (value, opened, closed)
    else failHere ("expected " ++ delim.description)
  | _ => failHere ("expected " ++ delim.description)

/-- Reads the tokens of a group into a group. -/
def grouped (delim : Delimiter) (content : Reader (List Token)) : Reader Token := do
  let (body, opened, closed) ← within delim content
  return .group delim body opened closed

/-- Repeats a step until it gives a result; the number bounds the steps. -/
def iterateUpTo (step : σ → Reader (σ ⊕ α)) : Nat → σ → Reader α
  | 0, _ => failHere "expected less input"
  | count + 1, state => do
    match ← step state with
    | .inl next => iterateUpTo step count next
    | .inr value => return value

/-- Repeats a step that consumes tokens until it gives a result. -/
def iterate (step : σ → Reader (σ ⊕ α)) (start : σ) : Reader α := do
  -- Each step but the last consumes a token.
  iterateUpTo step ((← rest).length + 2) start

/-- Reads items while a test holds. -/
def many (goesOn : List Token → Bool) (item : Reader α) : Reader (List α) :=
  iterate (fun read => do
    if goesOn (← rest) then return .inl ((← item) :: read) else return .inr read.reverse) []

/-- Reads separated items up to where a test holds; also tells whether a separator came last. -/
def listUntil (stop : List Token → Bool) (separator : String) (item : Reader α) :
    Reader (List α × Bool) :=
  iterate (fun read => do
    -- Nothing may stand there at all, or nothing behind the last separator.
    if stop (← rest) then return .inr (read.reverse, !read.isEmpty)
    else
      let value ← item
      if stop (← rest) then return .inr ((value :: read).reverse, false)
      else
        let _ ← symbol separator
        return .inl (value :: read)) []

/-- Reads items separated by commas up to the end of the group. -/
def commaList (item : Reader α) : Reader (List α × Bool) := listUntil List.isEmpty "," item

/-- Reads items as long as a separator follows; also tells whether a separator came last. -/
def chain (stop : List Token → Bool) (separator : String) (item : Reader α) :
    Reader (List α × Bool) :=
  iterate (fun read => do
    if stop (← rest) then return .inr (read.reverse, !read.isEmpty)
    else
      let value ← item
      -- Without a separator the chain ends here.
      if ← sees (Look.symbol separator) then
        let _ ← symbol separator
        return .inl (value :: read)
      else return .inr ((value :: read).reverse, false)) []

/-- Notes the type heads of what has just been read. -/
def note (heads : List String) : Reader Unit :=
  modify fun source => { source with heads := source.heads ++ heads }

/-- Reads with a fresh list of type heads and returns the heads noted meanwhile. -/
def collectingHeads (reader : Reader α) : Reader (α × List String) := do
  let before := (← get).heads
  modify fun source => { source with heads := [] }
  let value ← reader
  let found := (← get).heads
  modify fun source => { source with heads := before }
  return (value, found)

/-- Reads all of the given tokens; the end of the input is at `close`. -/
def run (reader : Reader α) (tokens : List Token) (close : Position := Position.origin) :
    Except Fault α :=
  match reader close ⟨tokens, [], none⟩ with
  | .error fault => .error fault
  | .ok (value, source) =>
    -- A leftover in an inner group is older than one at the outer end.
    match source.stray, source.rest with
    | some fault, _ => .error fault
    | none, token :: _ => .error ⟨"unexpected token", token.pos⟩
    | none, [] => .ok value

end Reader

/-- Tokens of items with a separator between them, and after the last one if `trailing`. -/
def separate (separator : List Token) (trailing : Bool) : List (List Token) → List Token
  | [] => []
  | [last] => last ++ (if trailing then separator else [])
  | item :: more => item ++ separator ++ separate separator trailing more

end KeyedCoding
