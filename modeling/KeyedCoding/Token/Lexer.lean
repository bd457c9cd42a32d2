import KeyedCoding.Token.Basic
import KeyedCoding.Token.Lexeme
import KeyedCoding.Text.Quoted

/-! Reading a source as tokens: groups nest, and a documentation comment is the attribute it stands for. -/

namespace KeyedCoding.Lexer

open Lexeme Token

/-- What one reading step finds. -/
inductive Found where
  | tokens (tokens : List Token)
  | opening (delim : Delimiter)
  | closing (delim : Delimiter)

/-- A group whose closing bracket has not been read, and the tokens before it in reverse. -/
structure OpenGroup where
  delim : Delimiter
  opened : Position
  before : List Token

/-- The attribute that a documentation comment stands for, all at the place of the comment. -/
def docTokens (pos : Position) (content : List Char) (owner : Bool) : List Token :=
  let text := Text.Quoted.literal (String.ofList content)
  [punct '#' false pos] ++ (if owner then [punct '!' false pos] else []) ++
    [group .bracket [name "doc" pos, punct '=' false pos, literal text pos] pos pos]

/-- The lifetime behind an apostrophe. -/
def lifetimeTail? (cs : List Char) : Option (String × List Char) := do
  -- What reads as a literal stays one.
  guard (literalEnd? cs).isNone
  name? cs

/-- The token that starts with an apostrophe and is no character. -/
def apostrophe? (pos : Position) (cs : List Char) : Option (Token × List Char) := do
  let (_, after) ← anyName? cs
  -- A second apostrophe or a stray hash makes it malformed.
  guard (after.head? ≠ some '\'' ∧ (after.head? ≠ some '#' ∨ startsWith "r#" cs))
  match lifetimeTail? cs with
  | some (spelling, rest) => return (lifetime ("'" ++ spelling) pos, rest)
  | none => return (punct '\'' true pos, cs)

/-- The punctuation that starts here. -/
def punct? (pos : Position) (cs : List Char) : Option (Token × List Char) :=
  if !startsPunct cs then none
  else match cs with
    | [] => none
    | '\'' :: rest => apostrophe? pos rest
    | c :: rest => some (punct c (startsPunct rest) pos, rest)

/-- The single token that starts here. -/
def leaf? (pos : Position) (cs : List Char) : Option (Token × List Char) :=
  match literalEnd? cs with
  | some rest => some (literal (String.ofList (consumed cs rest)) pos, rest)
  | none => (punct? pos cs).orElse fun _ =>
      (name? cs).map fun found => (name found.1 pos, found.2)

/-- The mark that stands for a literal nobody could read; it is a literal itself. -/
def unreadableMark : String := "(/*ERROR*/)"

/-- What starts here, and the text after it. -/
def found? (pos : Position) (cs : List Char) : Option (Found × List Char) :=
  match docComment? cs with
  | some (content, owner, rest) =>
    -- A carriage return of its own is refused; the text is then no token at all.
    if hasBareReturn content then none else some (.tokens (docTokens pos content owner), rest)
  | none =>
    match cs with
    | [] => none
    | c :: rest =>
      if startsWith unreadableMark cs then
        some (.tokens [literal unreadableMark pos], cs.drop unreadableMark.length)
      else match Delimiter.ofOpening? c with
      | some delim => some (.opening delim, rest)
      | none =>
        match Delimiter.ofClosing? c with
        | some delim => some (.closing delim, rest)
        | none => (leaf? pos cs).map fun leaf => (.tokens [leaf.1], leaf.2)

/-- Reads the tokens from a place on; an error is the place of the token at fault. -/
def readFrom (cs : List Char) (pos : Position) (stack : List OpenGroup) (read : List Token) :
    Except Position (List Token) :=
  let start := skipTrivia cs
  let here := pos.after (consumed cs start)
  if start.isEmpty then
    match stack with
    | [] => .ok read.reverse
    | innermost :: _ => .error innermost.opened
  else match found? here start with
    | none => .error here
    | some (found, rest) =>
      -- Every step consumes a character, so the guard only serves termination.
      if _h : rest.length < cs.length then
        let there := here.after (consumed start rest)
        match found with
        | .tokens tokens => readFrom rest there stack (tokens.reverse ++ read)
        | .opening delim => readFrom rest there (⟨delim, here, read⟩ :: stack) []
        | .closing delim =>
          match stack with
          | [] => .error here
          | innermost :: outer =>
            if innermost.delim = delim then
              readFrom rest there outer
                (group delim read.reverse innermost.opened here :: innermost.before)
            else .error here
      else .error here
termination_by cs.length

/-- Drops the mark that may open a text file. -/
def dropMark : List Char → List Char
  | '\ufeff' :: rest => rest
  | cs => cs

end KeyedCoding.Lexer

namespace KeyedCoding.Token

/-- The tokens of a source; an error is the place of the token at fault. -/
def ofSource (source : String) : Except Position (List Token) :=
  Lexer.readFrom (Lexer.dropMark source.toList) .origin [] []

end KeyedCoding.Token
