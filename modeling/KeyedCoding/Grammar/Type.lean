import KeyedCoding.Grammar.Path

/-! Reading types. -/

namespace KeyedCoding.Grammar

open Reader

variable (g : Grammar)

/-- What a reader of types names when nothing fits. -/
def typeStarts : List String :=
  ["`for`", "parentheses", "`fn`", "`unsafe`", "`extern`", "identifier", "`::`", "`<`", "`dyn`",
   "square brackets", "`*`", "`&`", "`!`", "`impl`", "`_`", "lifetime"]

/-- What may follow the lifetimes that a type is generic over. -/
def binderFollowers : List String :=
  ["identifier", "`fn`", "`unsafe`", "`extern`", "`super`", "`self`", "`Self`", "`crate`"]

/-- Whether a function type starts here. -/
def seesFunctionType (tokens : List Token) : Bool :=
  ["fn", "unsafe", "extern"].any (Look.word · tokens)

/-- Whether one of the words for places comes next. -/
def seesPlaceWord (tokens : List Token) : Bool :=
  ["super", "self", "Self", "crate"].any (Look.word · tokens)

/-- Whether a type path starts here. -/
def seesTypePath (tokens : List Token) : Bool :=
  Look.name tokens || seesPlaceWord tokens || Look.symbol "::" tokens || Look.symbol "<" tokens

/-- Whether a further bound can start here. -/
def seesBound (tokens : List Token) : Bool :=
  Look.anyWord tokens || Look.symbol "::" tokens || Look.symbol "?" tokens ||
    Look.lifetime tokens || Look.group .paren tokens

/-- Reads the bounds of a type; a plus that no bound follows is kept. -/
def boundList (allowPlus allowCapture allowConst : Bool) : Reader (List Bound × Bool) :=
  iterate (fun read => do
    let read := (← g.bound allowCapture allowConst) :: read
    if !allowPlus || !(← sees (Look.symbol "+")) then return .inr (read.reverse, false)
    else
      let _ ← symbol "+"
      let tokens ← rest
      -- A plus that nothing follows ends the list and is kept.
      if seesBound tokens || (allowConst && Look.group .bracket tokens) then return .inl read
      else return .inr (read.reverse, true)) []

/-- Whether a bound names a trait. -/
def isTraitBound : Bound → Bool
  | .lifetime _ => false
  | _ => true

/-- Reads the bounds of a type that has at least one trait. -/
def objectBounds (keyword : BoundsKeyword) (pos : Position) (message : String)
    (allowPlus allowCapture allowConst : Bool) : Reader Ty := do
  let (bounds, trailing) ← g.boundList allowPlus allowCapture allowConst
  if bounds.any isTraitBound then return .bounds keyword bounds trailing
  else failAt pos message

/-- Says that a type made of bounds has none that is a trait. -/
def objectNeedsTrait : String := "at least one trait is required for an object type"

/-- Reads a type made of bounds that no word introduces. -/
def bareObject (allowPlus : Bool) : Reader Ty := do
  g.objectBounds .bare (← here) objectNeedsTrait allowPlus false false

/-- Reads further bounds, each behind a plus. -/
def plusBounds : Reader (List Bound) :=
  many (Look.symbol "+") do
    let _ ← symbol "+"
    g.bound false false

/-- What the parentheses of a type turn out to hold. -/
inductive InParens where
  | whole (ty : Ty)
  | relaxed (bound : Bound)
  | single (ty : Ty)

/-- Reads the inside of the parentheses of a type. -/
def inParens : Reader InParens := do
  let tokens ← rest
  if tokens.isEmpty then return .whole (.tuple [] false)
  else if Look.lifetime tokens then return .whole (.paren (← g.bareObject true))
  else if Look.symbol "?" tokens then
    -- With the mark inside, the parentheses are those of a bound.
    match ← g.traitBound false with
    | some (.trait _ relaxed binder path) => return .relaxed (.trait true relaxed binder path)
    | _ => failHere "expected a trait"
  else
    let first ← g.ty true
    if ← sees (Look.symbol ",") then
      let _ ← symbol ","
      let (more, trailing) ← commaList (g.ty true)
      -- One type with a comma behind it is a tuple.
      return .whole (.tuple (first :: more) (trailing || more.isEmpty))
    else return .single first

/-- A parenthesized type as the first of several bounds, if it can be one. -/
def asFirstBound? : Ty → Option Bound
  | .path path => some (.trait true false [] path)
  | .bounds .bare [.trait _ relaxed binder path] false => some (.trait true relaxed binder path)
  | .bounds .bare [bound] false => some bound
  | _ => none

/-- Reads a type that starts with a parenthesis. -/
def parenthesized (allowPlus : Bool) : Reader Ty := do
  let (found, _, _) ← within .paren g.inParens
  match found with
  | .whole ty => return ty
  | .relaxed bound => return .bounds .bare (bound :: (← g.plusBounds)) false
  | .single ty =>
    -- A type in parentheses is the first bound of a list if a plus follows and it can be one.
    if allowPlus && (← sees (Look.symbol "+")) then
      match asFirstBound? ty with
      | some bound => return .bounds .bare (bound :: (← g.plusBounds)) false
      | none => return .paren ty
    else return .paren ty

/-- Reads the words before the parameters of a function type or item: safety and calling convention. -/
def callingWords : Reader (List Token) := do
  let safety ← word? "unsafe"
  if ← sees (Look.word "extern") then
    let extern_ ← word "extern"
    let abi ← if ← sees Look.text then pure [← text] else pure []
    return safety ++ [extern_] ++ abi
  else return safety

/-- Whether the rest of a parameter list stands for any number of parameters. -/
def seesVariadic (tokens : List Token) : Bool :=
  Look.symbol "..." tokens ||
    ((Look.name tokens || Look.word "_" tokens) && Look.symbol ":" (tokens.drop 1) &&
      Look.symbol "..." (tokens.drop 2))

/-- Reads the mark for any number of parameters. -/
def variadic (attrs : List Token) : Reader (List Token) := do
  let label ← if ← sees Look.anyWord then pure ((← anyName).token :: (← symbol ":")) else pure []
  let dots ← symbol "..."
  return attrs ++ label ++ dots ++ (← symbol? ",")

/-- Reads a parameter of a function type: a type that may have a name. -/
def functionInput (isFirst : Bool) (attrs : List Token) : Reader (List Token × Ty) := do
  let tokens ← rest
  -- The first parameter may be a receiver, which is kept as written.
  let mutSelf := isFirst && Look.word "mut" tokens && Look.word "self" (tokens.drop 1)
  if mutSelf then
    let _ ← word "mut"
    let _ ← word "self"
    if ← sees (Look.symbol ":") then
      let _ ← symbol ":"
      let _ ← g.ty true
    return (attrs, .verbatim (tokensBetween tokens (← rest)))
  -- Only one colon gives a name; two of them go on with a path.
  else if (Look.name tokens || Look.word "_" tokens || (isFirst && Look.word "self" tokens)) &&
      Look.symbol ":" (tokens.drop 1) && !Look.symbol "::" (tokens.drop 1) then
    let name ← anyName
    let colon ← symbol ":"
    return (attrs ++ [name.token] ++ colon, ← g.ty true)
  else return (attrs, ← g.ty true)

/-- Reads the parameters of a function type, and the mark for any number of them. -/
def functionInputs : Reader (List (List Token × Ty) × Bool × List Token) :=
  iterate (fun ((read : List (List Token × Ty))) => do
    if ← atEnd then return .inr (read.reverse, !read.isEmpty, [])
    else
      let attrs ← g.outerAttrTokens
      -- The mark for any number of parameters ends them.
      if seesVariadic (← rest) then
        return .inr (read.reverse, !read.isEmpty, ← variadic attrs)
      else
        let input ← g.functionInput read.isEmpty attrs
        if ← atEnd then return .inr ((input :: read).reverse, false, [])
        else
          let _ ← symbol ","
          return .inl (input :: read)) []

/-- Reads the type behind an arrow, if there is an arrow. -/
def output? (allowPlus : Bool) : Reader (Option Ty) := do
  if ← sees (Look.symbol "->") then
    let _ ← symbol "->"
    return some (← g.ty allowPlus)
  else return none

/-- Reads a function type. -/
def functionType (binder : List Token) : Reader Ty := do
  let words ← callingWords
  let fn_ ← word "fn"
  let ((inputs, trailing, variadic), _, _) ← within .paren g.functionInputs
  return .function (binder ++ words ++ [fn_]) inputs trailing variadic (← g.output? false)

/-- Reads a type that starts with a path: a path, an invocation or a list of bounds. -/
def pathType (binder : List Token) (allowPlus : Bool) : Reader Ty := do
  match ← g.qualifiedPath false with
  | .path path =>
    let tokens ← rest
    -- A path with type arguments is no macro.
    if Look.symbol "!" tokens && !Look.symbol "!=" tokens && path.isPlain then
      let _ ← symbol "!"
      return .invocation path (← anyGroup)
    -- A binder or a plus makes the path the first bound of a list.
    else if !binder.isEmpty || (allowPlus && Look.symbol "+" tokens) then
      let first := Bound.trait false false binder path
      if allowPlus && Look.symbol "+" tokens then
        let _ ← symbol "+"
        if seesBound (← rest) then
          let (more, trailing) ← g.boundList true false false
          return .bounds .bare (first :: more) trailing
        else return .bounds .bare [first] true
      else return .bounds .bare [first] false
    else return .path path
  | other => return other

/-- Reads a type behind the word for a dynamic object; with a star it is kept as written. -/
def dynType (allowPlus : Bool) : Reader Ty := do
  let tokens ← rest
  let pos ← here
  let _ ← word "dyn"
  let star ← symbol? "*"
  let ty ← g.objectBounds .dyn pos objectNeedsTrait allowPlus false false
  if star.isEmpty then return ty else return .verbatim (tokensBetween tokens (← rest))

/-- Reads a type in square brackets. -/
def bracketed : Reader Ty := do
  let elem ← g.ty true
  if ← sees (Look.symbol ";") then
    let _ ← symbol ";"
    let (length, heads) ← collectingHeads (g.expr true)
    return .array elem ⟨length.tokens, heads⟩
  else return .slice elem

/-- Reads a pointer type. -/
def pointerType : Reader Ty := do
  let _ ← symbol "*"
  let tokens ← rest
  if Look.word "const" tokens then
    let _ ← word "const"
    return .pointer false (← g.ty false)
  else if Look.word "mut" tokens then
    let _ ← word "mut"
    return .pointer true (← g.ty false)
  else failExpecting ["`const`", "`mut`"]

/-- Reads a reference type. -/
def referenceType : Reader Ty := do
  let _ ← symbol "&"
  let lifetime ← if ← sees Look.lifetime then
      match ← lifetime with
      | .lifetime spelling _ => pure (some spelling)
      | _ => pure none
    else pure none
  let mutable ← word? "mut"
  return .reference lifetime (!mutable.isEmpty) (← g.ty false)

/-- Reads a type: the layer over the readers it refers to. -/
def readType (allowPlus : Bool) : Reader Ty := do
  let binder ← g.binder
  let tokens ← rest
  -- What a binder is followed by is a path or a function.
  if !binder.isEmpty && !(Look.name tokens || seesFunctionType tokens || seesPlaceWord tokens) then
    failExpecting binderFollowers
  else if Look.group .paren tokens then g.parenthesized allowPlus
  else if seesFunctionType tokens then g.functionType binder
  else if seesTypePath tokens then g.pathType binder allowPlus
  else if Look.word "dyn" tokens then g.dynType allowPlus
  else if Look.group .bracket tokens then
    let (ty, _, _) ← within .bracket g.bracketed
    return ty
  else if Look.symbol "*" tokens then g.pointerType
  else if Look.symbol "&" tokens then g.referenceType
  else if Look.symbol "!" tokens then
    let _ ← symbol "!"
    return .never
  else if Look.word "impl" tokens then
    let pos ← here
    let _ ← word "impl"
    g.objectBounds .impl pos "at least one trait must be specified" allowPlus true true
  else if Look.word "_" tokens then
    let _ ← word "_"
    return .inferred
  else if Look.lifetime tokens then g.bareObject true
  else failExpecting typeStarts

end KeyedCoding.Grammar
