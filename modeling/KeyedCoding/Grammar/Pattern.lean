import KeyedCoding.Grammar.Type

/-! Reading patterns; only their tokens matter. -/

namespace KeyedCoding.Grammar

open Reader

variable (g : Grammar)

/-- Reads a type inside an expression or pattern; its heads are noted. -/
def typeTokens (allowPlus : Bool) : Reader (List Token) := do
  let ty ← g.ty allowPlus
  note ty.heads
  return ty.tokens

/-- The tokens of a path in an expression or pattern; the heads of its arguments are noted. -/
def pathTokens (ty : Ty) : Reader (List Token) := do
  match ty with
  -- The path itself names a value, not a type.
  | .path path => note path.heads
  | other => note other.heads
  return ty.tokens

/-- What a reader of patterns names when nothing fits. -/
def patternStarts : List String :=
  ["identifier", "`::`", "`<`", "`_`", "literal", "`const`", "`ref`", "`mut`", "`&`", "parentheses",
   "square brackets", "`..`", "`const`"]

/-- Whether an or-pattern goes on. -/
def seesAlternative (tokens : List Token) : Bool :=
  Look.symbol "|" tokens && !Look.symbol "||" tokens && !Look.symbol "|=" tokens

/-- Reads alternatives, which a bar may open. -/
def alternatives : Reader (List Token) := do
  let leading ← symbol? "|"
  let first ← g.pattern
  let more ← many seesAlternative do
    let bar ← symbol "|"
    return bar ++ (← g.pattern)
  return leading ++ first ++ more.flatten

/-- Reads patterns with commas in brackets. -/
def patternGroup (delim : Delimiter) : Reader Token :=
  grouped delim do
    let (patterns, trailing) ← commaList g.alternatives
    return commaSeparated trailing patterns

/-- Whether a tuple index or a name comes next. -/
def seesNumber : List Token → Bool
  | .literal text _ :: _ => Look.isNumber text
  | _ => false

/-- Reads the pattern of one field; a number always has a pattern of its own. -/
def fieldPattern : Reader (List Token) := do
  let words ← many (fun tokens => ["box", "ref", "mut"].any (Look.word · tokens)) do
    return (← anyName).token
  let tokens ← rest
  -- A number names a positional field, and always has a pattern behind it.
  if seesNumber tokens then
    let index ← literal
    let colon ← symbol ":"
    return words ++ index ++ colon ++ (← g.alternatives)
  else
    let name ← name
    -- Behind one of the words, the name itself is bound and no pattern follows.
    if words.isEmpty && (← sees (Look.symbol ":")) then
      let colon ← symbol ":"
      return [name.token] ++ colon ++ (← g.alternatives)
    else return words ++ [name.token]

/-- Reads the inside of a struct pattern. -/
def structPattern : Reader (List Token) :=
  iterate (fun (read : List Token) => do
    if ← atEnd then return .inr read
    else
      let attrs ← g.outerAttrTokens
      -- Two points end the fields.
      if ← sees (Look.symbol "..") then return .inr (read ++ attrs ++ (← symbol ".."))
      else
        let read := read ++ attrs ++ (← g.fieldPattern)
        if ← atEnd then return .inr read else return .inl (read ++ (← symbol ","))) []

/-- Reads the dots of a range pattern; the second part tells whether an end must follow. -/
def patternLimits : Reader (List Token × Bool) := do
  let tokens ← rest
  if Look.symbol "..=" tokens then return (← symbol "..=", true)
  else if Look.symbol "..." tokens then return (← symbol "...", true)
  else return (← symbol "..", false)

/-- Whether nothing more of a range pattern comes next. -/
def endsPatternRange (tokens : List Token) : Bool :=
  tokens.isEmpty || ["|", "=", ",", ";"].any (Look.symbol · tokens) ||
    (Look.symbol ":" tokens && !Look.symbol "::" tokens) || Look.word "if" tokens

/-- What a reader of range ends names when nothing fits. -/
def boundStarts : List String :=
  ["literal", "identifier", "`::`", "`<`", "`self`", "`Self`", "`super`", "`crate`", "`const`"]

/-- Reads an end of a range pattern, which may be missing. -/
def patternBound : Reader (List Token) := do
  let tokens ← rest
  -- A missing end is told by what may follow a range.
  if endsPatternRange tokens then return []
  else if Look.literal tokens then literal
  else if seesTypePath tokens then pathTokens (← g.qualifiedPath true)
  else if Look.word "const" tokens then
    let const ← word "const"
    return [const, ← g.block]
  else failExpecting boundStarts

/-- Reads the dots and the end of a range pattern. -/
def patternRange : Reader (List Token) := do
  let (limits, closed) ← patternLimits
  let bound ← g.patternBound
  if closed && bound.isEmpty then failHere "expected range upper bound"
  else return limits ++ bound

/-- Reads a pattern that starts with a path. -/
def pathPattern : Reader (List Token) := do
  let path ← g.qualifiedPath true
  let written ← pathTokens path
  let tokens ← rest
  let plain := match path with
    | .path path => path.isPlain
    | _ => false
  if plain && Look.symbol "!" tokens && !Look.symbol "!=" tokens then
    let bang ← symbol "!"
    return written ++ bang ++ [← anyGroup]
  -- Behind the path, a group decides what kind of pattern it is.
  else if Look.group .brace tokens then return written ++ [← grouped .brace g.structPattern]
  else if Look.group .paren tokens then return written ++ [← g.patternGroup .paren]
  else if Look.symbol ".." tokens then return written ++ (← g.patternRange)
  else return written

/-- Reads a pattern that binds a name. -/
def namePattern : Reader (List Token) := do
  let words ← many (fun tokens => ["ref", "mut"].any (Look.word · tokens)) do
    return (← anyName).token
  -- The word for a receiver is a name here.
  let name ← if ← sees (Look.word "self") then anyName else name
  if ← sees (Look.symbol "@") then
    let at_ ← symbol "@"
    return words ++ [name.token] ++ at_ ++ (← g.pattern)
  else return words ++ [name.token]

/-- Whether a pattern starts with a path that goes on. -/
def seesPathPattern (tokens : List Token) : Bool :=
  let next := tokens.drop 1
  (Look.name tokens &&
    (["::", "!", ".."].any (Look.symbol · next) || Look.group .brace next ||
      Look.group .paren next)) ||
    (Look.word "self" tokens && Look.symbol "::" next) || Look.symbol "::" tokens ||
    Look.symbol "<" tokens || ["Self", "super", "crate"].any (Look.word · tokens)

/-- Reads a pattern without alternatives: the layer over the readers it refers to. -/
def readPattern : Reader (List Token) := do
  let tokens ← rest
  if seesPathPattern tokens then g.pathPattern
  else if Look.word "_" tokens then return [← word "_"]
  else if Look.word "box" tokens then
    let box ← word "box"
    return box :: (← g.pattern)
  else if Look.literal tokens || Look.word "const" tokens then
    let start ← g.patternBound
    if ← sees (Look.symbol "..") then return start ++ (← g.patternRange) else return start
  else if ["ref", "mut", "self"].any (Look.word · tokens) || Look.name tokens then g.namePattern
  else if Look.symbol "&" tokens then
    let amp ← symbol "&"
    let mut_ ← word? "mut"
    return amp ++ mut_ ++ (← g.pattern)
  else if Look.group .paren tokens then return [← g.patternGroup .paren]
  else if Look.group .bracket tokens then return [← g.patternGroup .bracket]
  -- Three points would be the old operator, which no pattern begins with.
  else if Look.symbol ".." tokens && !Look.symbol "..." tokens then g.patternRange
  else failExpecting patternStarts

end KeyedCoding.Grammar
