import KeyedCoding.Tree.Item

/-! The readers that refer to one another, and what they share: words before a declaration, attributes and groups. -/

namespace KeyedCoding

/-- What later reading has to know of an expression. -/
inductive ExprShape where
  | other
  | textLiteral
  | openRange
  | closedRange
  | comparison
  | blockLike
  | braceInvocation
  | invocation
  deriving DecidableEq, Repr

/-- An expression: its tokens and its shape. -/
structure Expr where
  tokens : List Token
  shape : ExprShape := .other
  deriving Inhabited

namespace Expr

/-- Whether an expression is a range. -/
def isRange (expr : Expr) : Bool := expr.shape == .openRange || expr.shape == .closedRange

/-- Where an expression starts. -/
def pos (expr : Expr) : Position := Token.startOf expr.tokens

/-- Whether an expression ends with a closing brace. -/
def endsInBrace (expr : Expr) : Bool := (expr.tokens.getLast?.map Token.isBraceGroup).getD false

end Expr

/-- The readers for nested syntax; each refers to the others through this record. -/
structure Grammar where
  ty : (allowPlus : Bool) → Reader Ty
  path : (inExpr : Bool) → Reader Path
  expr : (allowStruct : Bool) → Reader Expr
  unary : (allowStruct : Bool) → Reader Expr
  binary : (left : Expr) → (allowStruct : Bool) → (base : Nat) → Reader Expr
  matching : Reader Expr
  pattern : Reader (List Token)
  statements : Reader (List Token)
  useTree : Reader (List Token)
  item : Reader Item

namespace Grammar

open Reader

/-- The readers that refuse everything. -/
def exhausted : Grammar where
  ty _ := failHere "expected less nesting"
  path _ := failHere "expected less nesting"
  expr _ := failHere "expected less nesting"
  unary _ := failHere "expected less nesting"
  binary _ _ _ := failHere "expected less nesting"
  matching := failHere "expected less nesting"
  pattern := failHere "expected less nesting"
  statements := failHere "expected less nesting"
  useTree := failHere "expected less nesting"
  item := failHere "expected less nesting"

/-- The name that opens a segment of an attribute path: any but the reserved words, and the words for places. -/
def opensPlainSegment (tokens : List Token) : Bool :=
  Look.name tokens || ["super", "self", "Self", "crate"].any (Look.word · tokens)

/-- Reads a path without arguments, as attributes and visibilities have it. -/
def plainPath : Reader Path := do
  let leading ← if ← sees (Look.symbol "::") then
      let pos ← here
      let _ ← symbol "::"
      pure (some pos)
    else pure none
  let (segments, trailing) ← chain (fun tokens => !opensPlainSegment tokens) "::" anyName
  if segments.isEmpty then
    -- A reserved word is named in the message.
    let _ ← name
    failHere "expected identifier"
  else if trailing then failHere "expected path segment after `::`"
  else return ⟨leading, segments.map fun name => ⟨name, .none⟩⟩

/-- Reads one group as it stands. -/
def anyGroup : Reader Token := do
  match ← rest with
  | .group delim body opened closed :: after =>
    setRest after
    return .group delim body opened closed
  | _ => failHere "expected delimiter"

/-- Whether any group comes next. -/
def seesGroup (tokens : List Token) : Bool :=
  Look.group .paren tokens || Look.group .bracket tokens || Look.group .brace tokens

variable (g : Grammar)

/-- Reads the value of an attribute: a literal that ends it is taken as it is. -/
def metaValue : Reader Expr := do
  let tokens ← rest
  match Look.afterLiteral? tokens with
  -- A literal that something follows may be the start of a longer expression.
  | some [] => return ⟨← literal, if Look.text tokens then .textLiteral else .other⟩
  | _ =>
    if Look.symbol "#" tokens && Look.group .bracket (tokens.drop 1) then
      failHere "unexpected attribute inside of attribute"
    else g.expr true

/-- Reads what follows the path of an attribute. -/
def metaContent : Reader MetaContent := do
  let tokens ← rest
  if seesGroup tokens then
    match ← anyGroup with
    | .group delim body opened closed => return .list delim body opened closed
    | _ => return .none
  -- Two other operators start with the same character.
  else if Look.symbol "=" tokens && !Look.symbol "==" tokens && !Look.symbol "=>" tokens then
    let pos ← here
    let _ ← symbol "="
    let (value, heads) ← collectingHeads g.metaValue
    return .value pos ⟨value.tokens, heads⟩
  else return .none

/-- Reads the inside of an attribute. -/
def metaInside : Reader Meta := do
  let path ← if ← sees (Look.word "unsafe") then pure (Path.ofName (← anyName)) else plainPath
  return ⟨path, ← g.metaContent⟩

/-- Reads one attribute that documents its owner, or what follows it. -/
def attr (owner : Bool) : Reader Attribute := do
  let pos ← here
  let _ ← symbol "#"
  if owner then
    let _ ← symbol "!"
  let (inside, _, _) ← within .bracket g.metaInside
  return ⟨pos, owner, inside⟩

/-- Reads the attributes that stand before something. -/
def outerAttrs : Reader (List Attribute) := many (Look.symbol "#") (g.attr false)

/-- Reads the attributes at the start of a body. -/
def ownerAttrs : Reader (List Attribute) :=
  many (fun tokens => Look.symbol "#" tokens && Look.symbol "!" (tokens.drop 1)) (g.attr true)

/-- The tokens of attributes inside an expression; their type heads are noted. -/
def attrTokens (attrs : List Attribute) : Reader (List Token) := do
  for attr in attrs do
    match attr.inside.content with
    | .value _ value => note value.heads
    | _ => pure ()
  return attrs.flatMap Attribute.tokens

/-- Reads the attributes before something as tokens. -/
def outerAttrTokens : Reader (List Token) := do attrTokens (← g.outerAttrs)

/-- Reads the statements of a block after its attributes. -/
def blockBody : Reader (List Token) := do
  let attrs ← attrTokens (← g.ownerAttrs)
  return attrs ++ (← g.statements)

/-- Reads a block. -/
def block : Reader Token := grouped .brace g.blockBody

/-- Reads a visibility; one that is not restricted leaves a group after it alone. -/
def visibility : Reader (List Token) := do
  if !(← sees (Look.word "pub")) then return []
  else
    let pub_ ← word "pub"
    -- Behind the word may stand the parentheses of a positional field, which are no restriction.
    let restriction ← optional <| grouped .paren do
      if ← sees (Look.word "in") then
        let in_ ← word "in"
        return in_ :: (← plainPath).tokens
      else
        let place ← anyName
        -- The word has to be alone, since a type may start with it.
        if ["crate", "self", "super"].contains place.spelling && (← atEnd) then
          return [place.token]
        else failHere "expected a place"
    return pub_ :: restriction.toList

end Grammar

end KeyedCoding
