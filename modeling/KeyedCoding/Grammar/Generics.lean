import KeyedCoding.Grammar.Pattern

/-! Reading generic parameters and where clauses. -/

namespace KeyedCoding.Grammar

open Reader

variable (g : Grammar)

/-- Reads bounds up to where a test holds. -/
def boundsUntil (stop : List Token → Bool) : Reader (List Token) := do
  let (bounds, trailing) ← chain stop "+" (g.bound false true)
  note (boundHeads bounds)
  return separate (Token.symbol "+") trailing (boundTokens bounds)

/-- Reads the lifetimes that a lifetime outlives, up to where a test holds. -/
def lifetimesUntil (stop : List Token → Bool) : Reader (List Token) := do
  let (lifetimes, trailing) ← chain stop "+" lifetime
  return separate (Token.symbol "+") trailing (lifetimes.map ([·]))

/-- Puts a colon before bounds; no bounds need none. -/
def behindColon (bounds : List Token) : List Token :=
  if bounds.isEmpty then [] else Token.symbol ":" ++ bounds

/-- Whether one of some operators comes next, or nothing. -/
def seesStop (stops : List String) (tokens : List Token) : Bool :=
  tokens.isEmpty || stops.any (Look.symbol · tokens)

/-- Reads a lifetime parameter. -/
def lifetimeParam (attrs : List Token) : Reader GenericParam := do
  let pos ← here
  -- The reader for lifetimes gives nothing else.
  let spelling := match ← lifetime with
    | .lifetime spelling _ => spelling
    | _ => ""
  let bound ← if ← sees (Look.symbol ":") then
      let _ ← symbol ":"
      lifetimesUntil (seesStop [",", ">"])
    else pure []
  return ⟨attrs, .lifetime, ⟨spelling, pos⟩, behindColon bound, []⟩

/-- Reads a type parameter. -/
def typeParam (attrs : List Token) : Reader GenericParam := do
  let name ← name
  let bound ← if ← sees (Look.symbol ":") then
      let _ ← symbol ":"
      g.boundsUntil (seesStop [",", ">", "="])
    else pure []
  let default ← if ← sees (Look.symbol "=") then
      let equals ← symbol "="
      pure (equals ++ (← g.typeTokens true))
    else pure []
  return ⟨attrs, .type, name, behindColon bound, default⟩

/-- Reads a parameter that stands for a value. -/
def constParam (attrs : List Token) : Reader GenericParam := do
  let _ ← word "const"
  let name ← name
  let colon ← symbol ":"
  let ty ← g.typeTokens true
  let default ← if ← sees (Look.symbol "=") then
      let equals ← symbol "="
      let value ← g.constArgument
      -- The heads in a value are noted, since a type may stand in it.
      note value.heads
      pure (equals ++ value.tokens)
    else pure []
  return ⟨attrs, .const, name, colon ++ ty, default⟩

/-- Reads one generic parameter. -/
def genericParam : Reader GenericParam := do
  let attrs ← g.outerAttrTokens
  let tokens ← rest
  if Look.lifetime tokens then lifetimeParam attrs
  else if Look.name tokens then g.typeParam attrs
  else if Look.word "const" tokens then g.constParam attrs
  else if Look.word "_" tokens then return ⟨attrs, .type, ← anyName, [], []⟩
  else failExpecting ["lifetime", "identifier", "`const`"]

/-- Reads generic parameters, if there are any; the where clause comes later. -/
def generics : Reader Generics := do
  if !(← sees (Look.symbol "<")) then return .empty
  else
    let _ ← symbol "<"
    let (params, trailing) ← listUntil (Look.symbol ">") "," g.genericParam
    let _ ← symbol ">"
    return ⟨params, trailing, none⟩

/-- Whether a where clause ends here. -/
def endsPredicate (tokens : List Token) : Bool :=
  seesStop [",", ";", "="] tokens || Look.group .brace tokens ||
    (Look.symbol ":" tokens && !Look.symbol "::" tokens)

/-- Reads one predicate of a where clause. -/
def predicate : Reader (List Token) := do
  let tokens ← rest
  -- A lifetime without a colon behind it may begin a type.
  if Look.lifetime tokens && Look.symbol ":" (tokens.drop 1) then
    let lifetime ← lifetime
    let colon ← symbol ":"
    let stop := fun tokens => seesStop [",", ";", ":", "=", ">"] tokens || Look.group .brace tokens
    return [lifetime] ++ colon ++ (← lifetimesUntil stop)
  else
    let binder ← g.binder
    let ty ← g.typeTokens true
    let colon ← symbol ":"
    return binder ++ ty ++ colon ++ (← g.boundsUntil endsPredicate)

/-- Reads a where clause whose word comes next. -/
def whereClause : Reader WhereClause := do
  let _ ← word "where"
  let (predicates, trailing) ← chain endsPredicate "," g.predicate
  return ⟨predicates, trailing⟩

/-- Reads a where clause, if there is one. -/
def whereClause? : Reader (Option WhereClause) := do
  if ← sees (Look.word "where") then return some (← g.whereClause) else return none

/-- Reads a where clause as tokens, if there is one. -/
def whereTokens : Reader (List Token) := return ((← g.whereClause?).map (·.tokens)).getD []

end KeyedCoding.Grammar
