import KeyedCoding.KeyMapping.Basic

/-! Mappings as arguments: the attribute that carries a mapping, and how its arguments are read back. -/

namespace KeyedCoding

namespace KeyEntry

/-- The tokens of a key as a string literal. -/
def keyToken (entry : KeyEntry) : Token := .literal (Text.Quoted.literal entry.key) .origin

/-- An entry as an argument; a key that is the plain name is not written. -/
def tokens (entry : KeyEntry) : List Token :=
  entry.field.token ::
    (if entry.key = entry.field.plain then [] else Token.symbol "=" ++ [entry.keyToken])

end KeyEntry

namespace KeyMapping

/-- The name of the attribute that carries a mapping. -/
def attributeName : String := "coding_keys"

/-- The argument that names the path of the runtime. -/
def runtimeArgument (runtime : Path) : List Token :=
  Token.word "crate" :: Token.symbol "=" ++
    [.literal (Text.Quoted.literal (Token.renderAll runtime.tokens)) .origin]

/-- The arguments that carry a mapping. -/
def argumentTokens (mapping : KeyMapping) (runtime : Path) (namesRuntime : Bool) : List Token :=
  commaSeparated false
    (mapping.entries.map KeyEntry.tokens ++ if namesRuntime then [runtimeArgument runtime] else [])

/-- The attribute that carries a mapping. -/
def toAttribute (mapping : KeyMapping) (runtime : Path) (namesRuntime : Bool) :
    Synthesis Attribute :=
  if runtime.fitsAttribute then
    .ok (.withList (runtime.extend [attributeName]) (mapping.argumentTokens runtime namesRuntime))
  else .error .unspliceable

end KeyMapping

/-- A mapping given as arguments, with the path of the runtime if they name it. -/
structure MappingArguments where
  mapping : KeyMapping := {}
  runtime : Option Path := none

namespace MappingArguments

/-- The key that an argument gives, as a string literal. -/
def keyLiteral? (value : Snippet) : Option Token :=
  match value.tokens with
  | [.literal written pos] => if Look.isText written then some (.literal written pos) else none
  | _ => none

/-- The path of an argument and the literal behind it. -/
def keyOf (entry : Meta) : Synthesis (Option Token) :=
  match entry.content with
  | .none => .ok none
  | .value _ value =>
    match keyLiteral? value with
    | some literal => .ok (some literal)
    -- The place of the fault is that of the value, not of the entry.
    | none => .error (.invalidAttribute .keyNotText (Token.startOf value.tokens))
  | .list .. => .error (.invalidAttribute .entryWithList entry.path.pos)

/-- Takes the path of the runtime from an argument. -/
def addRuntime (args : MappingArguments) (path : Path) (literal : Option Token) :
    Synthesis MappingArguments :=
  match literal with
  | none => .error (.invalidAttribute .crateNotText path.pos)
  | some literal => do
    return { args with runtime := some (← Synthesis.ofReading (Path.ofLiteral literal)) }

/-- Takes an entry of the mapping from an argument; a field and a key may be given once. -/
def addEntry (args : MappingArguments) (path : Path) (literal : Option Token) :
    Synthesis MappingArguments :=
  match path.singleName? with
  | none => .error (.invalidAttribute .noFieldName path.pos)
  | some field =>
    if args.mapping.contains field then
      .error (.invalidAttribute (.fieldListedTwice field.spelling) field.pos)
    -- The key may still be that of another field, which inserting it tells.
    else do
      let key := (literal.map Token.textValue).getD field.plain
      return { args with mapping := ← args.mapping.insert field key field.pos }

/-- Takes one argument. -/
def add (args : MappingArguments) (entry : Meta) : Synthesis MappingArguments := do
  let literal ← keyOf entry
  if entry.path.isName "crate" then args.addRuntime entry.path literal
  else args.addEntry entry.path literal

/-- Reads the arguments of a mapping. -/
def ofTokens (tokens : List Token) : Synthesis MappingArguments := do
  let entries ← Synthesis.ofReading (Grammar.read (fun g => Reader.commaList g.metaInside) tokens)
  entries.1.foldlM add {}

end MappingArguments

end KeyedCoding
