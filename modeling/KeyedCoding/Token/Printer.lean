import KeyedCoding.Token.Basic

/-! The written form of tokens: one blank between two tokens, none after joint punctuation. -/

namespace KeyedCoding.Token

/-- Whether the next token follows without a blank. -/
def isJoint : Token → Bool
  | punct _ joint _ => joint
  | _ => false

/-- The opening bracket with the blank that braces carry. -/
def openingText : Delimiter → String
  | .paren => "("
  | .bracket => "["
  | .brace => "\x7b "

/-- The closing bracket; a blank stands before it if the braces hold something. -/
def closingText (delim : Delimiter) (holds : Bool) : String :=
  match delim with
  | .paren => ")"
  | .bracket => "]"
  | .brace => if holds then " \x7d" else "\x7d"

mutual

/-- The written form of one token. -/
def render : Token → String
  | name spelling _ => spelling
  | lifetime spelling _ => spelling
  | punct ch _ _ => ch.toString
  | literal text _ => text
  | group delim body _ _ =>
    openingText delim ++ renderAll body ++ closingText delim !body.isEmpty

/-- The written form of a list of tokens. -/
def renderAll : List Token → String
  | [] => ""
  | token :: rest => render token ++ renderRest (isJoint token) rest

/-- The written form of the tokens after a first one. -/
def renderRest (joint : Bool) : List Token → String
  | [] => ""
  | token :: rest =>
    (if joint then "" else " ") ++ render token ++ renderRest (isJoint token) rest

end

end KeyedCoding.Token
