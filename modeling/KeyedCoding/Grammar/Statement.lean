import KeyedCoding.Grammar.Expr

/-! Reading the statements of a block. -/

namespace KeyedCoding.Grammar

open Reader

variable (g : Grammar)

/-- Whether a constant starts here, not a closure or a block. -/
def seesConstItem (tokens : List Token) : Bool :=
  let next := tokens.drop 1
  let afterNext := next.drop 1
  Look.word "const" tokens &&
    !(Look.group .brace next || Look.word "static" next || Look.word "move" next ||
      Look.symbol "|" next ||
      (Look.word "async" next && !(["unsafe", "extern", "fn"].any (Look.word · afterNext))))

/-- Whether a static starts here, not a closure. -/
def seesStaticItem (tokens : List Token) : Bool :=
  let next := tokens.drop 1
  Look.word "static" tokens && (Look.word "mut" next || Look.name next)

/-- Whether a statement is a declaration. -/
def seesItem (tokens : List Token) : Bool :=
  let next := tokens.drop 1
  ["pub", "extern", "use", "fn", "mod", "type", "struct", "enum", "trait", "impl", "macro"].any
      (Look.word · tokens) ||
    -- The word starts a path if two colons follow, and a visibility otherwise.
    (Look.word "crate" tokens && !Look.symbol "::" next) || seesStaticItem tokens ||
    seesConstItem tokens || (Look.word "unsafe" tokens && !Look.group .brace next) ||
    (Look.word "async" tokens && ["unsafe", "extern", "fn"].any (Look.word · next)) ||
    -- The last three words are reserved in these places only.
    (Look.word "union" tokens && Look.name next) ||
    (Look.word "auto" tokens && Look.word "trait" next) ||
    (Look.word "default" tokens && (Look.word "unsafe" next || Look.word "impl" next))

/-- What an invocation at the start of a statement is. -/
inductive Invocation where
  | none
  | item
  | statement

/-- Decides what starts with a path and an exclamation mark; in braces it is a statement of its own. -/
def invocation : Reader Invocation := do
  match ← ahead plainPath with
  | some (_, after) =>
    let next := after.drop 1
    let afterNext := next.drop 1
    -- A point behind the braces goes on with an expression.
    let goesOn := (Look.symbol "." afterNext && !Look.symbol ".." afterNext) ||
      Look.symbol "?" afterNext
    if !Look.symbol "!" after then return .none
    -- A name behind the mark makes it a declaration.
    else if Look.name next || Look.word "try" next then return .item
    else if Look.group .brace next && !goesOn then return .statement
    else return .none
  | Option.none => return .none

/-- Reads a binding statement. -/
def letStatement : Reader (List Token) := do
  let let_ ← word "let"
  let pattern ← g.pattern
  let ty ← if ← sees (Look.symbol ":") then
      let colon ← symbol ":"
      pure (colon ++ (← g.typeTokens true))
    else pure []
  let value ← if ← sees (Look.symbol "=") then
      let equals ← symbol "="
      let value ← g.expr true
      -- A value that ends in a brace could not be told from the block behind the word.
      let otherwise ← if !value.endsInBrace && (← sees (Look.word "else")) then
          let else_ ← word "else"
          pure [else_, ← g.block]
        else pure []
      pure (equals ++ value.tokens ++ otherwise)
    else pure []
  return [let_] ++ pattern ++ ty ++ value ++ (← symbol ";")

/-- Whether an expression needs a semicolon before a further statement. -/
def needsSemicolon (expr : Expr) : Bool :=
  expr.shape != .blockLike && expr.shape != .braceInvocation

/-- Reads one statement; the second part tells whether nothing may follow it. -/
def statement : Reader (List Token × Bool) := do
  let start ← rest
  let attrs ← g.outerAttrTokens
  let tokens ← rest
  match ← invocation with
  | .statement =>
    let path ← plainPath
    let bang ← symbol "!"
    let body ← anyGroup
    return (attrs ++ path.tokens ++ bang ++ [body] ++ (← symbol? ";"), false)
  | kind =>
    let isItem := match kind with
      | .item => true
      | _ => seesItem tokens
    if Look.word "let" tokens then return (attrs ++ (← g.letStatement), false)
    else if isItem then
      -- What is a declaration is read again from its attributes on.
      setRest start
      return ((← g.item).tokens, false)
    else
      let expr ← g.earlyExpr
      let semi ← symbol? ";"
      -- Nothing may follow an expression without a semicolon, unless it ends in a block.
      return (attrs ++ expr.tokens ++ semi, semi.isEmpty && needsSemicolon expr)

/-- Reads the statements of a block: the layer over the readers it refers to. -/
def readStatements : Reader (List Token) :=
  iterate (fun (read : List Token) => do
    if ← atEnd then return .inr read
    else if ← sees (Look.symbol ";") then return .inl (read ++ (← symbol ";"))
    else
      let (statement, isLast) ← g.statement
      if isLast && !(← atEnd) then failHere "unexpected token, expected `;`"
      else return .inl (read ++ statement)) []

end KeyedCoding.Grammar
