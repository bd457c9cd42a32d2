import KeyedCoding.Grammar.Basic

/-! Reading paths, generic arguments and bounds. -/

namespace KeyedCoding.Grammar

open Reader

variable (g : Grammar)

/-- Reads an argument that is a value: a literal, a name or a block. -/
def constArgument : Reader Snippet := do
  let tokens ← rest
  if Look.literal tokens then return ⟨← literal, []⟩
  else if Look.name tokens then return ⟨[(← name).token], []⟩
  -- Any other expression has to stand in a block.
  else if Look.group .brace tokens then
    let (block, heads) ← collectingHeads g.block
    return ⟨[block], heads⟩
  else failExpecting []

/-- Reads lifetimes that a type or bound is generic over, if there are any. -/
def binder : Reader (List Token) := do
  if !(← sees (Look.word "for")) then return []
  else
    let for_ ← word "for"
    let opening ← symbol "<"
    let (lifetimes, trailing) ← listUntil (Look.symbol ">") "," do
      let attrs ← g.outerAttrTokens
      return attrs ++ [← lifetime]
    let closing ← symbol ">"
    return [for_] ++ opening ++ separate (Token.symbol ",") trailing lifetimes ++ closing

/-- Reads the value of a named argument: a value or a type. -/
def namedArgument (name : Name) (arguments : Arguments) : Reader GenericArg := do
  let _ ← symbol "="
  let tokens ← rest
  if Look.literal tokens || Look.group .brace tokens then
    return .assocConst name arguments (← g.constArgument)
  else return .assocType name arguments (← g.ty true)

/-- The inputs of a function-like trait and its output. -/
def callArguments : Reader Arguments := do
  let ((inputs, trailing), _, _) ← within .paren (commaList (g.ty true))
  if ← sees (Look.symbol "->") then
    let _ ← symbol "->"
    return .call inputs trailing (some (← g.ty false))
  else return .call inputs trailing none

/-- Reads the name of a path segment: reserved words for places are segments, too. -/
def segmentName : Reader Name := do
  let tokens ← rest
  if ["super", "self", "crate", "try", "Self"].any (Look.word · tokens) then anyName else name

/-- Whether a segment of the word before the tokens can have arguments. -/
def takesArguments (name : Name) : Bool :=
  !(["super", "self", "crate", "try"].contains name.spelling)

/-- Whether generic arguments come next; in an expression they need a double colon. -/
def seesArguments (inExpr : Bool) (tokens : List Token) : Bool :=
  (!inExpr && Look.symbol "<" tokens && !Look.symbol "<=" tokens) ||
    (Look.symbol "::" tokens && Look.symbol "<" (tokens.drop 2))

/-- Whether a further segment comes next; a parenthesis after the colons is not one. -/
def seesSegment (tokens : List Token) : Bool :=
  Look.symbol "::" tokens && !Look.group .paren (tokens.drop 2)

/-- Reads a captured parameter of an opaque type. -/
def capture : Reader (List Token) := do
  let tokens ← rest
  if Look.lifetime tokens then return [← lifetime]
  else if Look.name tokens || Look.word "Self" tokens then return [(← anyName).token]
  else failExpecting ["lifetime", "identifier", "`Self`"]

/-- Reads a trait bound without its parentheses; none if it has a form that is kept as written. -/
def traitBound (allowConst : Bool) : Reader (Option Bound) := do
  let before ← g.binder
  let constPos ← here
  let conditional ← if ← sees (Look.group .bracket) then
      let _ ← within .bracket (word "const")
      if !allowConst then failAt constPos "`[const]` is not allowed here" else pure true
    else if ← sees (Look.word "const") then
      let _ ← word "const"
      if !allowConst then failAt constPos "`const` is not allowed here" else pure true
    else pure false
  let relaxed ← symbol? "?"
  let binder ← if before.isEmpty && !relaxed.isEmpty then g.binder else pure before
  let path ← g.path false
  let tokens ← rest
  let called := Look.group .paren tokens ||
    (Look.symbol "::" tokens && Look.group .paren (tokens.drop 2))
  -- Only a segment without arguments of its own can be called.
  let path ← match path.lastSegment? with
    | some ⟨name, arguments⟩ =>
      if called && arguments.isEmpty then
        let _ ← symbol? "::"
        let arguments ← g.callArguments
        pure ⟨path.leading, path.segments.dropLast ++ [⟨name, arguments⟩]⟩
      else pure path
    | none => pure path
  if conditional then return none
  else return some (.trait false (!relaxed.isEmpty) binder path)

/-- The tokens that `after` lacks at the end of `before`. -/
def tokensBetween (before after : List Token) : List Token :=
  before.take (before.length - after.length)

/-- Reads one bound. -/
def bound (allowCapture allowConst : Bool) : Reader Bound := do
  let tokens ← rest
  if Look.lifetime tokens then
    match ← lifetime with
    | .lifetime spelling _ => return .lifetime spelling
    | other => return .verbatim [other]
  else if Look.word "use" tokens then
    let pos ← here
    let use ← word "use"
    let opening ← symbol "<"
    let (captured, trailing) ← listUntil (Look.symbol ">") "," capture
    let closing ← symbol ">"
    -- Everything is read before the place is told to be the wrong one.
    if !allowCapture then failAt pos "`use<...>` precise capturing syntax is not allowed here"
    else
      return .verbatim
        ([use] ++ opening ++ separate (Token.symbol ",") trailing captured ++ closing)
  else
    let inParens := Look.group .paren tokens
    -- One pair of parentheses may stand around a bound.
    let bound ← if inParens then
        let (bound, _, _) ← within .paren (g.traitBound allowConst)
        pure bound
      else g.traitBound allowConst
    match bound with
    | some (.trait _ relaxed binder path) => return .trait inParens relaxed binder path
    -- A bound of another form is kept as written.
    | _ => return .verbatim (tokensBetween tokens (← rest))

/-- Reads a generic argument. -/
def argument : Reader GenericArg := do
  let tokens ← rest
  if Look.lifetime tokens && !Look.symbol "+" (tokens.drop 1) then
    match ← lifetime with
    | .lifetime spelling _ => return .lifetime spelling
    | other => return .const ⟨[other], []⟩
  else if Look.literal tokens || Look.group .brace tokens then
    return .const (← g.constArgument)
  else
    let ty ← g.ty true
    match ty with
    -- A single relative segment may name an argument.
    | .path ⟨none, [⟨name, arguments⟩]⟩ =>
      let tokens ← rest
      if Look.symbol "=" tokens then g.namedArgument name arguments
      else if Look.symbol ":" tokens then
        let _ ← symbol ":"
        let stop := fun tokens => Look.symbol "," tokens || Look.symbol ">" tokens
        let (bounds, trailing) ← chain stop "+" (g.bound false true)
        return .constraint name arguments bounds trailing
      else return .type ty
    | _ => return .type ty

/-- Reads generic arguments in angle brackets. -/
def angleArguments : Reader Arguments := do
  let turbofish ← symbol? "::"
  let _ ← symbol "<"
  let (args, trailing) ← listUntil (Look.symbol ">") "," g.argument
  let _ ← symbol ">"
  return .angle (!turbofish.isEmpty) args trailing

/-- Reads a path segment. -/
def segment (inExpr : Bool) : Reader Segment := do
  let name ← segmentName
  if takesArguments name && seesArguments inExpr (← rest) then
    return ⟨name, ← g.angleArguments⟩
  else return ⟨name, .none⟩

/-- Reads the segments of a path after its first. -/
def moreSegments (inExpr : Bool) : Reader (List Segment) :=
  many seesSegment do
    let _ ← symbol "::"
    g.segment inExpr

/-- Reads a path: the layer over the readers it refers to. -/
def readPath (inExpr : Bool) : Reader Path := do
  let leading ← if ← sees (Look.symbol "::") then
      let pos ← here
      let _ ← symbol "::"
      pure (some pos)
    else pure none
  let first ← g.segment inExpr
  return ⟨leading, first :: (← g.moreSegments inExpr)⟩

/-- Reads the part of a projection that stands in angle brackets, and the segments behind it. -/
def projection (inExpr : Bool) : Reader Ty := do
  let pos ← here
  let _ ← symbol "<"
  let source ← g.ty true
  let base ← if ← sees (Look.word "as") then
      let _ ← word "as"
      pure (some (← g.path false))
    else pure none
  let _ ← symbol ">"
  let _ ← symbol "::"
  let first ← g.segment inExpr
  -- Here even a parenthesis does not end the segments.
  let more ← many (Look.symbol "::") do
    let _ ← symbol "::"
    g.segment inExpr
  return .projection pos source base (first :: more)

/-- Reads a path or a projection. -/
def qualifiedPath (inExpr : Bool) : Reader Ty := do
  if ← sees (Look.symbol "<") then g.projection inExpr else return .path (← g.path inExpr)

end KeyedCoding.Grammar
