import KeyedCoding.Grammar.Pattern

/-! Reading expressions: where they end, and their tokens. -/

namespace KeyedCoding.Grammar

open Reader

variable (g : Grammar)

/-- How tightly operators bind, from loose to tight. -/
def bindsAssign : Nat := 1

/-- How tightly ranges bind. -/
def bindsRange : Nat := 2

/-- How tightly comparisons bind. -/
def bindsCompare : Nat := 6

/-- How tightly casts bind. -/
def bindsCast : Nat := 13

/-- The binary operators with how tightly they bind; longer ones stand before their beginnings. -/
def operators : List (String × Nat) :=
  [("+=", 1), ("-=", 1), ("*=", 1), ("/=", 1), ("%=", 1), ("^=", 1), ("&=", 1), ("|=", 1),
   ("<<=", 1), (">>=", 1), ("&&", 4), ("||", 3), ("<<", 10), (">>", 10), ("==", 6), ("<=", 6),
   ("!=", 6), (">=", 6), ("+", 11), ("-", 11), ("*", 12), ("/", 12), ("%", 12), ("^", 8), ("&", 9),
   ("|", 7), ("<", 6), (">", 6)]

/-- The binary operator that comes next. -/
def operator? (tokens : List Token) : Option (String × Nat) :=
  operators.find? fun operator => Look.symbol operator.1 tokens

/-- Whether a plain assignment comes next. -/
def seesAssign (tokens : List Token) : Bool :=
  Look.symbol "=" tokens && !Look.symbol "=>" tokens

/-- How tightly what comes next binds; zero if it is no operator. -/
def nextBinding (tokens : List Token) : Nat :=
  match operator? tokens with
  | some (_, binding) => binding
  | none =>
    -- An operator has been looked for first, since it may start like one of these.
    if seesAssign tokens then bindsAssign
    else if Look.symbol ".." tokens then bindsRange
    else if Look.word "as" tokens then bindsCast
    else 0

/-- Reads the right side of an operator that binds as tightly as `binding`. -/
def rightSide (allowStruct : Bool) (binding : Nat) : Reader Expr := do
  iterate (fun side => do
    let tokens ← rest
    let next := nextBinding tokens
    if binding < next || (next == binding && binding == bindsAssign) then
      let longer ← g.binary side allowStruct next
      -- What cannot stand to the left of an operator ends the side.
      if (← rest).length == tokens.length then return .inr longer else return .inl longer
    else return .inr side) (← g.unary allowStruct)

/-- Reads the dots of a range; the second part tells whether an end must follow. -/
def rangeLimits : Reader (List Token × Bool) := do
  let tokens ← rest
  if Look.symbol "..=" tokens then return (← symbol "..=", true)
  else if Look.symbol ".." tokens && !Look.symbol "..." tokens then return (← symbol "..", false)
  else failExpecting ["`..`", "`..=`"]

/-- Whether nothing more of a range comes next. -/
def endsRange (allowStruct : Bool) (tokens : List Token) : Bool :=
  tokens.isEmpty ||
    [",", ";", "?", "=>", "=", "+", "/", "%", "^", ">", "<=", "!=", "-=", "*=", "&=", "|=", "<<="].any
      (Look.symbol · tokens) ||
    (Look.symbol "." tokens && !Look.symbol ".." tokens) ||
    (!allowStruct && Look.group .brace tokens) || Look.word "as" tokens

/-- Reads the dots and the end of a range. -/
def rangeTail (start : List Token) (allowStruct : Bool) : Reader Expr := do
  let (limits, closed) ← rangeLimits
  if !closed && endsRange allowStruct (← rest) then return ⟨start ++ limits, .openRange⟩
  else
    let side ← g.rightSide allowStruct bindsRange
    return ⟨start ++ limits ++ side.tokens, .closedRange⟩

/-- What follows a cast although it cannot, if it does. -/
def afterCast? (tokens : List Token) : Option String :=
  let next := tokens.drop 1
  -- Two points are a range, which a cast may well stand in front of.
  if Look.symbol "." tokens && !Look.symbol ".." tokens then
    if Look.word "await" next then some "`.await`"
    else if Look.name next && (Look.group .paren (next.drop 1) || Look.symbol "::" (next.drop 1)) then
      -- Behind a name, only a call or type arguments tell a method from a field.
      some "a method call"
    else some "a field access"
  else if Look.symbol "?" tokens then some "`?`"
  else if Look.group .bracket tokens then some "indexing"
  else if Look.group .paren tokens then some "a function call"
  else none

/-- Reads the operators behind a left side that bind at least as tightly as `base`. -/
def readBinary (left : Expr) (allowStruct : Bool) (base : Nat) : Reader Expr :=
  iterate (fun left => do
    let tokens ← rest
    -- A range with an end cannot stand to the left of an operator.
    if left.shape == .closedRange then return .inr left
    else match operator? tokens with
      | some (spelling, binding) =>
        if binding < base || (binding == bindsAssign && left.isRange) then return .inr left
        else if binding == bindsCompare && left.shape == .comparison then
          failHere "comparison operators cannot be chained"
        else
          let operator ← symbol spelling
          let right ← g.rightSide allowStruct binding
          let shape := if binding == bindsCompare then .comparison else .other
          return .inl ⟨left.tokens ++ operator ++ right.tokens, shape⟩
      | none =>
        if base ≤ bindsAssign && seesAssign tokens && !left.isRange then
          let operator ← symbol "="
          let right ← g.rightSide allowStruct bindsAssign
          return .inl ⟨left.tokens ++ operator ++ right.tokens, .other⟩
        else if base ≤ bindsRange && Look.symbol ".." tokens then
          return .inl (← g.rangeTail left.tokens allowStruct)
        else if base ≤ bindsCast && Look.word "as" tokens then
          let as_ ← word "as"
          let ty ← g.typeTokens false
          match afterCast? (← rest) with
          | some what => failHere ("casts cannot be followed by " ++ what)
          | none => return .inl ⟨left.tokens ++ [as_] ++ ty, .other⟩
        else return .inr left) left

/-- Reads a whole expression: the layer over the readers it refers to. -/
def readExpr (allowStruct : Bool) : Reader Expr := do
  g.binary (← g.unary allowStruct) allowStruct 0

/-- Whether an expression starts here. -/
def seesExpr (tokens : List Token) : Bool :=
  let apart (spelling : String) (others : List String) : Bool :=
    Look.symbol spelling tokens && !others.any (Look.symbol · tokens)
  (Look.anyWord tokens && !Look.word "as" tokens) || seesGroup tokens || Look.literal tokens ||
    apart "!" ["!="] || apart "-" ["-=", "->"] || apart "*" ["*="] || apart "|" ["|="] ||
    apart "&" ["&="] || Look.symbol ".." tokens || apart "<" ["<=", "<<="] ||
    Look.symbol "::" tokens || Look.lifetime tokens || Look.symbol "#" tokens

/-- The tokens of expressions with commas between them. -/
def exprList : Reader (List Token) := do
  let (exprs, trailing) ← commaList (g.expr true)
  return commaSeparated trailing (exprs.map (·.tokens))

/-- The decimal digits of a tuple index; none if it has a suffix. -/
def tupleIndex? (text : String) : Option String :=
  let digits := text.toList.filter (· ≠ '_')
  if !digits.isEmpty && digits.all Char.isDigit then
    some (toString (digits.foldl (fun n c => n * 10 + (c.toNat - '0'.toNat)) 0))
  else none

/-- The words for a number that is no index: digits with an exponent are not even an integer. -/
def indexFault (text : String) : String :=
  match text.toList.dropWhile (fun c => c.isDigit || c = '_') with
  | 'e' :: _ => "expected integer literal"
  | 'E' :: _ => "expected integer literal"
  | _ => "expected unsuffixed integer"

/-- The parts of a literal between its points, a point at the end apart. -/
def indexParts (text : String) : List String :=
  (text.splitOn ".").filter (!·.isEmpty)

/-- Reads the indices that one literal with points spells; a point at its end starts a member. -/
def floatMember (text : String) (pos : Position) : Reader (List Token × Bool) := do
  let indices ← (indexParts text).mapM fun part =>
    match tupleIndex? part with
    | some digits => pure [Token.literal digits pos]
    | none => failAt pos (indexFault part)
  return (separate (Token.symbol ".") false indices, text.toList.getLast? == some '.')

/-- Reads a named member with its call, if it is called. -/
def memberTail : Reader (List Token) := do
  let tokens ← rest
  if Look.word "await" tokens then return [← word "await"]
  else if Look.name tokens then
    let name ← name
    let turbofish ← if ← sees (Look.symbol "::") then
        let arguments ← g.angleArguments
        note arguments.heads
        pure arguments.tokens
      else pure []
    if !turbofish.isEmpty || (← sees (Look.group .paren)) then
      -- Type arguments make it a call even without parentheses, which are then expected.
      return [name.token] ++ turbofish ++ [← grouped .paren g.exprList]
    else return [name.token]
  else match tokens with
    | .literal text pos :: after =>
      if Look.isNumber text then
        -- A member without a name is told by its place, which is a plain number.
        match tupleIndex? text with
        | some digits =>
          setRest after
          return [.literal digits pos]
        | none => failAt pos (indexFault text)
      else failHere "expected identifier or integer"
    | _ => failHere "expected identifier or integer"

/-- Whether a number that has a point comes next. -/
def seesPointNumber : List Token → Bool
  | .literal text _ :: _ => Look.isNumber text && text.toList.contains '.'
  | _ => false

/-- Reads a member behind its point. -/
def member : Reader (List Token) := do
  let dot ← symbol "."
  match ← rest with
  | .literal text pos :: after =>
    -- Behind a point, two indices and the point between them are lexed as one number.
    if seesPointNumber [.literal text pos] then
      setRest after
      let (indices, goesOn) ← floatMember text pos
      if goesOn then return dot ++ indices ++ Token.symbol "." ++ (← g.memberTail)
      else return dot ++ indices
    else return dot ++ (← g.memberTail)
  | _ => return dot ++ (← g.memberTail)

/-- Reads the calls, members and indices behind an expression. -/
def trailers (expr : Expr) : Reader Expr :=
  iterate (fun (expr : Expr) => do
    let tokens ← rest
    if Look.group .paren tokens then
      return .inl ⟨expr.tokens ++ [← grouped .paren g.exprList], .other⟩
    -- What stands behind a range belongs to its last bound, so a range itself has no members.
    else if Look.symbol "." tokens && !Look.symbol ".." tokens && !expr.isRange then
      return .inl ⟨expr.tokens ++ (← g.member), .other⟩
    else if Look.group .bracket tokens then
      let index ← grouped .bracket (return (← g.expr true).tokens)
      return .inl ⟨expr.tokens ++ [index], .other⟩
    else if Look.symbol "?" tokens && !expr.isRange then
      return .inl ⟨expr.tokens ++ (← symbol "?"), .other⟩
    else return .inr expr) expr

/-- Reads one field of a struct literal. -/
def fieldValue : Reader (List Token) := do
  let attrs ← g.outerAttrTokens
  let tokens ← rest
  if Look.name tokens then
    let name ← name
    if ← sees (Look.symbol ":") then
      let colon ← symbol ":"
      return attrs ++ [name.token] ++ colon ++ (← g.expr true).tokens
    else return attrs ++ [name.token]
  else if seesNumber tokens then
    let index ← literal
    let colon ← symbol ":"
    return attrs ++ index ++ colon ++ (← g.expr true).tokens
  else failHere "expected identifier or integer"

/-- Reads the inside of a struct literal. -/
def structBody : Reader (List Token) :=
  iterate (fun (read : List Token) => do
    if ← atEnd then return .inr read
    -- Two points end the fields, and what stands behind them is the base of the others.
    else if ← sees (Look.symbol "..") then
      let dots ← symbol ".."
      if ← atEnd then return .inr (read ++ dots)
      else return .inr (read ++ dots ++ (← g.expr true).tokens)
    else
      let read := read ++ (← g.fieldValue)
      if ← atEnd then return .inr read else return .inl (read ++ (← symbol ","))) []

/-- Reads an expression that starts with a path. -/
def pathExpr (allowStruct : Bool) : Reader Expr := do
  let path ← g.qualifiedPath true
  let written ← pathTokens path
  let tokens ← rest
  let plain := match path with
    | .path path => path.isPlain
    | _ => false
  -- A path with type arguments or a projection is no macro.
  if plain && Look.symbol "!" tokens && !Look.symbol "!=" tokens then
    let bang ← symbol "!"
    let body ← anyGroup
    let shape := if body.isBraceGroup then .braceInvocation else .invocation
    return ⟨written ++ bang ++ [body], shape⟩
  -- Where a block may follow, a brace is no struct literal.
  else if allowStruct && Look.group .brace tokens then
    return ⟨written ++ [← grouped .brace g.structBody], .other⟩
  else return ⟨written, .other⟩

/-- Reads the inside of square brackets: items, or an item and a count. -/
def arrayBody : Reader (List Token) := do
  if ← atEnd then return []
  else
    let first ← g.expr true
    let tokens ← rest
    -- One item without a comma, then items, then an item and its count.
    if tokens.isEmpty then return first.tokens
    else if Look.symbol "," tokens then
      let comma ← symbol ","
      return first.tokens ++ comma ++ (← g.exprList)
    else if Look.symbol ";" tokens then
      let semi ← symbol ";"
      return first.tokens ++ semi ++ (← g.expr true).tokens
    else failHere "expected `,` or `;`"

/-- Reads a parameter of a closure. -/
def closureParam : Reader (List Token) := do
  let attrs ← g.outerAttrTokens
  let pattern ← g.pattern
  if ← sees (Look.symbol ":") then
    let colon ← symbol ":"
    return attrs ++ pattern ++ colon ++ (← g.typeTokens true)
  else return attrs ++ pattern

/-- Reads a closure. -/
def closure (allowStruct : Bool) : Reader Expr := do
  let binder ← g.binder
  let const_ ← word? "const"
  let static_ ← word? "static"
  let async_ ← word? "async"
  let move_ ← word? "move"
  let opening ← symbol "|"
  let (params, trailing) ← listUntil (Look.symbol "|") "," g.closureParam
  let closing ← symbol "|"
  let head := binder ++ const_ ++ static_ ++ async_ ++ move_ ++ opening ++
    commaSeparated trailing params ++ closing
  -- A closure with a written result has a block for its body.
  if ← sees (Look.symbol "->") then
    let arrow ← symbol "->"
    let ty ← g.typeTokens true
    return ⟨head ++ arrow ++ ty ++ [← g.block], .other⟩
  else return ⟨head ++ (← g.expr allowStruct).tokens, .other⟩

/-- Reads a conditional with all its branches. -/
def ifExpr : Reader Expr := do
  let attrs ← g.outerAttrTokens
  iterate (fun (read : List Token) => do
    let if_ ← word "if"
    -- In a condition, a brace opens the branch and no struct literal.
    let condition ← g.expr false
    let read := read ++ [if_] ++ condition.tokens ++ [← g.block]
    if !(← sees (Look.word "else")) then return .inr ⟨read, .blockLike⟩
    else
      let else_ ← word "else"
      let tokens ← rest
      -- The rest of the chain is read by the next round.
      if Look.word "if" tokens then return .inl (read ++ [else_])
      else if Look.group .brace tokens then
        return .inr ⟨read ++ [else_, ← g.block], .blockLike⟩
      else failExpecting ["`if`", "curly braces"]) attrs

/-- Reads a loop over a condition. -/
def whileExpr : Reader Expr := do
  let while_ ← word "while"
  let condition ← g.expr false
  return ⟨[while_] ++ condition.tokens ++ [← g.block], .blockLike⟩

/-- Reads a loop over items. -/
def forExpr : Reader Expr := do
  let for_ ← word "for"
  let pattern ← g.alternatives
  let in_ ← word "in"
  let items ← g.expr false
  return ⟨[for_] ++ pattern ++ [in_] ++ items.tokens ++ [← g.block], .blockLike⟩

/-- Reads a block behind one word. -/
def wordBlock (spelling : String) : Reader Expr := do
  let word ← word spelling
  return ⟨[word, ← g.block], .blockLike⟩

/-- Reads a block expression. -/
def blockExpr : Reader Expr := return ⟨[← g.block], .blockLike⟩

/-- Reads a loop or block behind its label. -/
def labelled : Reader Expr := do
  let label ← lifetime
  let colon ← symbol ":"
  let tokens ← rest
  let expr ←
    if Look.word "while" tokens then g.whileExpr
    else if Look.word "for" tokens then g.forExpr
    else if Look.word "loop" tokens then g.wordBlock "loop"
    else if Look.group .brace tokens then g.blockExpr
    else failHere "expected loop or block expression"
  return ⟨[label] ++ colon ++ expr.tokens, expr.shape⟩

/-- The reader of an expression that ends in a block, if such an expression comes next. -/
def early? (tokens : List Token) : Option (Reader Expr) :=
  let next := tokens.drop 1
  if Look.word "if" tokens then some g.ifExpr
  else if Look.word "while" tokens then some g.whileExpr
  -- Behind the keyword of a loop, angle brackets would be the binder of a closure.
  else if Look.word "for" tokens &&
      !(Look.symbol "<" next && (Look.lifetime (next.drop 1) || Look.symbol ">" (next.drop 1))) then
    some g.forExpr
  else if Look.word "loop" tokens then some (g.wordBlock "loop")
  else if Look.word "match" tokens then some g.matching
  else if Look.word "try" tokens && Look.group .brace next then some (g.wordBlock "try")
  else if Look.word "unsafe" tokens then some (g.wordBlock "unsafe")
  else if Look.word "const" tokens && Look.group .brace next then some (g.wordBlock "const")
  else if Look.group .brace tokens then some g.blockExpr
  else if Look.lifetime tokens then some g.labelled
  else none

/-- Reads an expression that may end early: one that ends in a block is not continued by an operator. -/
def earlyExpr : Reader Expr := do
  let attrs ← g.outerAttrTokens
  match g.early? (← rest) with
  | none =>
    let expr ← g.unary true
    g.binary ⟨attrs ++ expr.tokens, expr.shape⟩ true 0
  | some early =>
    let expr ← early
    let expr := { expr with tokens := attrs ++ expr.tokens }
    let tokens ← rest
    -- A point or a question mark goes on with the expression, and any other operator does not.
    if (Look.symbol "." tokens && !Look.symbol ".." tokens) || Look.symbol "?" tokens then
      g.binary (← g.trailers expr) true 0
    else return expr

/-- Whether an expression needs a comma behind it as an arm. -/
def needsComma (expr : Expr) : Bool := expr.shape != .blockLike

/-- Reads one arm of a match. -/
def arm : Reader (List Token) := do
  let attrs ← g.outerAttrTokens
  let pattern ← g.alternatives
  let guarded ← if ← sees (Look.word "if") then
      let if_ ← word "if"
      pure (if_ :: (← g.expr true).tokens)
    else pure []
  let arrow ← symbol "=>"
  let body ← g.earlyExpr
  -- A block needs no comma behind it, and the last arm needs none either.
  let comma ← if needsComma body && !(← atEnd) then symbol "," else symbol? ","
  return attrs ++ pattern ++ guarded ++ arrow ++ body.tokens ++ comma

/-- Reads a match: the layer over the readers it refers to. -/
def readMatching : Reader Expr := do
  let match_ ← word "match"
  let value ← g.expr false
  let body ← grouped .brace do
    let attrs ← attrTokens (← g.ownerAttrs)
    let arms ← many (!·.isEmpty) g.arm
    return attrs ++ arms.flatten
  return ⟨[match_] ++ value.tokens ++ [body], .blockLike⟩

/-- Reads the value behind a word, if there is one. -/
def valueBehind (spelling : String) (allowStruct : Bool) : Reader Expr := do
  let word ← word spelling
  let tokens ← rest
  if seesExpr tokens && (allowStruct || !Look.group .brace tokens) then
    return ⟨[word] ++ (← g.expr allowStruct).tokens, .other⟩
  else return ⟨[word], .other⟩

/-- Reads a break with its label and value. -/
def breakExpr (allowStruct : Bool) : Reader Expr := do
  let tokens ← rest
  -- A labelled loop here has to stand in parentheses, so that it is not taken for the label.
  if Look.lifetime (tokens.drop 1) && Look.symbol ":" (tokens.drop 2) then
    let _ ← word "break"
    let pos ← here
    let _ ← g.expr true
    failAt pos "parentheses required"
  else if Look.lifetime (tokens.drop 1) then
    let break_ ← word "break"
    let label ← lifetime
    let tokens ← rest
    -- Where no struct literal may stand, a brace does not begin the value.
    if seesExpr tokens && (allowStruct || !Look.group .brace tokens) then
      return ⟨[break_, label] ++ (← g.expr allowStruct).tokens, .other⟩
    else return ⟨[break_, label], .other⟩
  else g.valueBehind "break" allowStruct

/-- Whether a closure starts here. -/
def seesClosure (tokens : List Token) : Bool :=
  let next := tokens.drop 1
  Look.symbol "|" tokens || Look.word "move" tokens ||
    (Look.word "for" tokens && Look.symbol "<" next &&
      (Look.lifetime (next.drop 1) || Look.symbol ">" (next.drop 1))) ||
    (Look.word "const" tokens && !Look.group .brace next) || Look.word "static" tokens ||
    (Look.word "async" tokens && (Look.symbol "|" next || Look.word "move" next))

/-- Whether a block that runs later starts here. -/
def seesAsyncBlock (tokens : List Token) : Bool :=
  let next := tokens.drop 1
  Look.word "async" tokens &&
    (Look.group .brace next || (Look.word "move" next && Look.group .brace (next.drop 1)))

/-- Reads a call of an operation of the compiler, which is kept as written. -/
def builtinCall : Reader Expr := do
  let tokens ← rest
  let _ ← word "builtin"
  let _ ← symbol "#"
  let _ ← name
  let _ ← grouped .paren do
    -- What stands inside the parentheses is kept without being read.
    let arguments ← rest
    setRest []
    return arguments
  return ⟨tokensBetween tokens (← rest), .other⟩

/-- Reads an expression without operators around it. -/
def atom (allowStruct : Bool) : Reader Expr := do
  let tokens ← rest
  let next := tokens.drop 1
  -- Some words open several forms, so the order of the tests matters.
  if Look.literal tokens then
    return ⟨← literal, if Look.text tokens then .textLiteral else .other⟩
  else if seesAsyncBlock tokens then
    let async_ ← word "async"
    let move_ ← word? "move"
    return ⟨[async_] ++ move_ ++ [← g.block], .other⟩
  else if Look.word "try" tokens && Look.group .brace next then g.wordBlock "try"
  else if seesClosure tokens then g.closure allowStruct
  else if Look.word "builtin" tokens && Look.symbol "#" next then builtinCall
  -- The word may also be the name of a macro, or the start of a path.
  else if seesTypePath tokens ||
      (Look.word "try" tokens && (Look.symbol "!" next || Look.symbol "::" next)) then
    g.pathExpr allowStruct
  else if Look.group .paren tokens then return ⟨[← grouped .paren g.exprList], .other⟩
  else if Look.word "break" tokens then g.breakExpr allowStruct
  else if Look.word "continue" tokens then
    let continue_ ← word "continue"
    let label ← if ← sees Look.lifetime then pure [← lifetime] else pure []
    return ⟨[continue_] ++ label, .other⟩
  else if Look.word "return" tokens then g.valueBehind "return" true
  else if Look.word "become" tokens then
    let _ ← word "become"
    let _ ← g.expr true
    -- The form has no tree of its own and is kept as written.
    return ⟨tokensBetween tokens (← rest), .other⟩
  else if Look.group .bracket tokens then return ⟨[← grouped .bracket g.arrayBody], .other⟩
  else if Look.word "let" tokens then
    let let_ ← word "let"
    let pattern ← g.alternatives
    let equals ← symbol "="
    -- A binding in a condition ends before the operators that join conditions.
    let value ← g.binary (← g.unary allowStruct) allowStruct bindsCompare
    return ⟨[let_] ++ pattern ++ equals ++ value.tokens, .other⟩
  else if Look.word "if" tokens then g.ifExpr
  else if Look.word "while" tokens then g.whileExpr
  else if Look.word "for" tokens then g.forExpr
  else if Look.word "loop" tokens then g.wordBlock "loop"
  else if Look.word "match" tokens then g.matching
  else if Look.word "yield" tokens then g.valueBehind "yield" true
  else if Look.word "unsafe" tokens then g.wordBlock "unsafe"
  else if Look.word "const" tokens then g.wordBlock "const"
  else if Look.group .brace tokens then g.blockExpr
  else if Look.symbol ".." tokens then g.rangeTail [] allowStruct
  else if Look.word "_" tokens then return ⟨[← word "_"], .other⟩
  else if Look.lifetime tokens then g.labelled
  else failHere "expected an expression"

/-- Reads an expression that no binary operator joins: the layer over the readers it refers to. -/
def readUnary (allowStruct : Bool) : Reader Expr := do
  let attrs ← g.outerAttrTokens
  let tokens ← rest
  if Look.symbol "&" tokens then
    let amp ← symbol "&"
    let tokens ← rest
    -- The word is one for a raw reference only before one of the two others.
    let isRaw := Look.word "raw" tokens &&
      (Look.word "mut" (tokens.drop 1) || Look.word "const" (tokens.drop 1))
    let raw ← if isRaw then word? "raw" else pure []
    let mut_ ← word? "mut"
    let const_ ← if isRaw && mut_.isEmpty then pure [← word "const"] else pure []
    let target ← g.unary allowStruct
    return ⟨attrs ++ amp ++ raw ++ mut_ ++ const_ ++ target.tokens, .other⟩
  else if ["*", "!", "-"].any (Look.symbol · tokens) then
    let operator ← if Look.symbol "*" tokens then symbol "*"
      else if Look.symbol "!" tokens then symbol "!" else symbol "-"
    return ⟨attrs ++ operator ++ (← g.unary allowStruct).tokens, .other⟩
  else
    let start ← here
    let expr ← g.trailers (← g.atom allowStruct)
    -- An attribute before a range would belong to its first bound, which is missing.
    if !attrs.isEmpty && expr.isRange then
      failAt start "attributes are not allowed on range expressions starting with `..`"
    else return ⟨attrs ++ expr.tokens, expr.shape⟩

end KeyedCoding.Grammar
