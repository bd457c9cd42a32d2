/-! Tokens of a declaration source: names, punctuation, literals and bracketed groups, each with its place. -/

namespace KeyedCoding

/-- A place in a source: line and column, both from 1, the column in characters. -/
structure Position where
  line : Nat
  column : Nat
  deriving DecidableEq, Repr, Inhabited

namespace Position

/-- The place of everything that no source wrote, and of the end of an argument text. -/
def origin : Position := ⟨1, 1⟩

/-- The place after a character. -/
def next (pos : Position) (c : Char) : Position :=
  -- A line ends with its line feed.
  if c = '\n' then ⟨pos.line + 1, 1⟩ else ⟨pos.line, pos.column + 1⟩

/-- The place after a text. -/
def after (pos : Position) (text : List Char) : Position := text.foldl next pos

end Position

/-- Drops the marker of a raw name. -/
def plainSpelling (spelling : String) : String :=
  -- A raw name is an ordinary name behind the two characters of its marker.
  match spelling.toList with
  | 'r' :: '#' :: rest => String.ofList rest
  | _ => spelling

/-- A name as written, raw marker included, with its place. -/
structure Name where
  spelling : String
  pos : Position := Position.origin
  deriving Repr, Inhabited

namespace Name

/-- Two names are the same name if they are spelled alike, wherever they stand. -/
instance : BEq Name := ⟨fun a b => a.spelling == b.spelling⟩

/-- The name without its raw marker. -/
def plain (name : Name) : String := plainSpelling name.spelling

end Name

/-- The brackets of a group. -/
inductive Delimiter where
  | paren
  | bracket
  | brace
  deriving DecidableEq, Repr, Inhabited

namespace Delimiter

/-- What a reader calls a group in these brackets. -/
def description : Delimiter → String
  | paren => "parentheses"
  | bracket => "square brackets"
  | brace => "curly braces"

/-- The closing bracket. -/
def closing : Delimiter → Char
  | paren => ')'
  | bracket => ']'
  | brace => '\x7d'

/-- The brackets that a character opens. -/
def ofOpening? : Char → Option Delimiter
  | '(' => some paren
  | '[' => some bracket
  | '\x7b' => some brace
  | _ => none

/-- The brackets that a character closes. -/
def ofClosing? : Char → Option Delimiter
  | ')' => some paren
  | ']' => some bracket
  | '\x7d' => some brace
  | _ => none

end Delimiter

/-- A token; a group holds the tokens between two matching brackets. -/
inductive Token where
  | name (spelling : String) (pos : Position)
  | lifetime (spelling : String) (pos : Position)
  | punct (ch : Char) (joint : Bool) (pos : Position)
  | literal (text : String) (pos : Position)
  | group (delim : Delimiter) (body : List Token) (opened closed : Position)
  deriving Inhabited

namespace Token

/-- Where a token starts. -/
def pos : Token → Position
  | name _ pos => pos
  | lifetime _ pos => pos
  | punct _ _ pos => pos
  | literal _ pos => pos
  | group _ _ opened _ => opened

/-- Whether a token is a group in braces. -/
def isBraceGroup : Token → Bool
  | group .brace _ _ _ => true
  | _ => false

mutual

/-- The token with every place in it replaced. -/
def moveTo (place : Position) : Token → Token
  | name spelling _ => name spelling place
  | lifetime spelling _ => lifetime spelling place
  | punct ch joint _ => punct ch joint place
  | literal text _ => literal text place
  | group delim body _ _ => group delim (moveAllTo place body) place place

/-- The tokens with every place in them replaced. -/
def moveAllTo (place : Position) : List Token → List Token
  | [] => []
  | token :: rest => moveTo place token :: moveAllTo place rest

end

mutual

/-- The number of tokens in a token, a group counting for one more than its content. -/
def weight : Token → Nat
  | group _ body _ _ => weightAll body + 1
  | _ => 1

/-- The number of tokens in a list of tokens, at every depth. -/
def weightAll : List Token → Nat
  | [] => 0
  | token :: rest => weight token + weightAll rest

end

/-- A word that stands at a place. -/
def wordAt (pos : Position) (spelling : String) : Token := name spelling pos

/-- A word that no source wrote. -/
def word (spelling : String) : Token := name spelling .origin

/-- The characters of an operator: each but the last is joint with its successor. -/
def symbolChars (pos : Position) : List Char → List Token
  | [] => []
  | [c] => [punct c false pos]
  | c :: rest => punct c true pos :: symbolChars pos rest

/-- An operator that stands at a place. -/
def symbolAt (pos : Position) (spelling : String) : List Token := symbolChars pos spelling.toList

/-- An operator that no source wrote. -/
def symbol (spelling : String) : List Token := symbolAt .origin spelling

/-- Tokens in round brackets. -/
def parens (body : List Token) : Token := group .paren body .origin .origin

/-- Tokens in square brackets. -/
def brackets (body : List Token) : Token := group .bracket body .origin .origin

/-- Tokens in braces. -/
def braces (body : List Token) : Token := group .brace body .origin .origin

/-- The place of the first token of a list. -/
def startOf (tokens : List Token) : Position := (tokens.head?.map pos).getD .origin

end Token

/-- The token of a name. -/
def Name.token (name : Name) : Token := .name name.spelling name.pos

end KeyedCoding
