import KeyedCoding.Grammar
import KeyedCoding.SynthesisError

/-! Paths that a text holds: in a string literal of an argument, or in a setting. -/

namespace KeyedCoding

namespace Token

/-- The text that a string literal denotes. -/
def textValue (token : Token) : String :=
  match token with
  | .literal written _ => (Text.Quoted.value? written).getD ""
  | _ => ""

/-- The suffix behind a string literal. -/
def textSuffix (token : Token) : String :=
  match token with
  | .literal written _ => Text.Quoted.suffix written
  | _ => ""

end Token

namespace Path

/-- Reads the path that a string literal holds; every token of it stands where the literal does. -/
def ofLiteral (literal : Token) : Except Fault Path :=
  match Token.ofSource literal.textValue with
  | .error pos => .error (Grammar.unreadableSource pos)
  | .ok tokens => do
    let path ← Grammar.read (·.path false) (Token.moveAllTo literal.pos tokens) literal.pos
    if literal.textSuffix.isEmpty then return path
    else .error ⟨"unexpected suffix `" ++ literal.textSuffix ++ "` on string literal", literal.pos⟩

/-- Reads a path that a setting gives. -/
def ofSetting (text : String) : Synthesis Path :=
  (Path.ofSource text).mapError fun fault =>
    .invalidAttribute (.invalidPath text fault.message) .origin

/-- Whether a path is plain enough to name an attribute. -/
def fitsAttribute (path : Path) : Bool :=
  -- One reserved word may stand in other paths only.
  path.isPlain && path.segments.all (·.name.spelling != "try")

/-- Whether a path can open a type. -/
def fitsType (path : Path) : Bool :=
  -- The same word may stand behind other segments of a type only.
  path.leading.isSome || (path.segments.head?.map (·.name.spelling != "try")).getD true

/-- Whether a path may stand in an expression: angle brackets need a double colon before them. -/
def fitsExpression (path : Path) : Bool :=
  path.segments.all fun segment => match segment.arguments with
    | .angle turbofish _ _ => turbofish
    | .call _ _ _ => false
    | .none => true

/--
Whether a call that starts with a path can be read: if the path may stand there, or if its tokens make
another expression, as an argument with a value makes an assignment to a comparison.
-/
def opensExpression (path : Path) : Bool :=
  path.fitsExpression ||
    (Grammar.read (·.expr true) ((path.extend ["call"]).tokens ++ [Token.parens []])).isOk

end Path

end KeyedCoding
