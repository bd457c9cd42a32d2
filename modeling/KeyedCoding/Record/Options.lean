import KeyedCoding.Grammar.Quoted

/-! The options of a field: what its attributes say about its coding. -/

namespace KeyedCoding

namespace Attribute

/-- The attribute that holds the coding options of a field. -/
def codableName : String := "codable"

/-- The attribute that moves a field to secure storage. -/
def secureName : String := "secure"

/-- The marks before the brackets of an attribute. -/
def marks (attr : Attribute) : String := if attr.owner then "#!" else "#"

/-- Reads the list of an attribute with a reader of the grammar; without a list it is a fault. -/
def readList {α : Type} (attr : Attribute) (reader : Grammar → Reader α) : Except Fault α :=
  let sample := attr.marks ++ "[" ++ attr.path.display ++ "(...)]"
  match attr.inside.content with
  | .list _ body _ closed => Grammar.read reader body closed
  | .none => .error ⟨"expected attribute arguments in parentheses: " ++ sample, attr.path.namePos⟩
  | .value pos _ => .error ⟨"expected parentheses: " ++ sample, pos⟩

end Attribute

namespace Grammar

open Reader

/-- Reads the names of a path behind its leading colons; any word may stand there. -/
def argumentNames (leading : Option Position) : Reader Path := do
  let tokens ← rest
  if Look.anyWord tokens then
    let first ← anyName
    let more ← many (Look.symbol "::") do
      let _ ← symbol "::"
      anyName
    return ⟨leading, (first :: more).map fun name => ⟨name, .none⟩⟩
  -- What is wrong is told by what stands in the place of the name.
  else if tokens.isEmpty then failHere "expected nested attribute"
  else if Look.literal tokens then
    failHere "unexpected literal in nested attribute, expected ident"
  else failHere "unexpected token in nested attribute, expected ident"

/-- Reads the path that opens an argument. -/
def argumentPath : Reader Path := do
  if ← sees (Look.symbol "::") then
    let pos ← here
    let _ ← symbol "::"
    argumentNames (some pos)
  else argumentNames none

/-- Reads one named argument with the comma behind it; at the end of the group there is no more. -/
def argumentStep {σ : Type} (step : σ → Path → Reader σ) (state : σ) : Reader (σ ⊕ σ) := do
  if ← atEnd then return .inr state
  else
    let path ← argumentPath
    let state ← step state path
    -- At the end of the group, no comma has to follow.
    if ← atEnd then return .inr state
    else
      let _ ← symbol ","
      return .inl state

/-- Reads named arguments one after the other; each continues what the ones before it gave. -/
def arguments {σ : Type} (step : σ → Path → Reader σ) (start : σ) : Reader σ :=
  iterate (argumentStep step) start

/-- Reads the equals sign of an argument and the expression behind it. -/
def argumentExpr (g : Grammar) : Reader Expr := do
  let _ ← symbol "="
  g.expr true

/-- Reads the equals sign of an argument and the string literal behind it. -/
def argumentText : Reader Token := do
  let _ ← symbol "="
  text

end Grammar

/-- The options of a field. -/
structure FieldOptions where
  skip : Bool := false
  readonly : Bool := false
  default : Option Expr := none
  rename : Option String := none
  secure : Bool := false

namespace FieldOptions

open Reader

/-- Reads what follows the name of one option. -/
def readOption (g : Grammar) (options : FieldOptions) (path : Path) : Reader FieldOptions := do
  -- The two flags may be repeated.
  if path.isName "skip" then return { options with skip := true }
  else if path.isName "readonly" then return { options with readonly := true }
  else if path.isName "default" then
    -- A repetition is noticed before its value is read.
    if options.default.isSome then failAt path.namePos "duplicate `default` option"
    else return { options with default := some (← g.argumentExpr) }
  else if path.isName "rename" then
    if options.rename.isSome then failAt path.namePos "duplicate `rename` option"
    else return { options with rename := some (← Grammar.argumentText).textValue }
  else failAt path.namePos ("unknown codable field option `" ++ path.display ++ "`")

/-- Adds what one attribute says. -/
def addAttribute (options : FieldOptions) (attr : Attribute) : Except Fault FieldOptions :=
  if attr.path.isName Attribute.secureName then .ok { options with secure := true }
  else if attr.path.isName Attribute.codableName then
    attr.readList fun g => Grammar.arguments (readOption g) options
  else .ok options

/-- The options that the attributes of a field give. -/
def ofAttributes (attributes : List Attribute) : Except Fault FieldOptions :=
  attributes.foldlM addAttribute {}

end FieldOptions

namespace Field

open Reader

/-- Reads the options of a coding attribute as they stand, for repeating them. -/
def readEntries (g : Grammar) : Reader (List (List Token)) :=
  return ((← commaList g.metaInside).1).map Meta.tokens

/-- Replaces the first element that passes a test. -/
def replaceFirst {α : Type} (test : α → Bool) (replacement : α) : List α → List α
  | [] => []
  | item :: rest =>
    if test item then replacement :: rest else item :: replaceFirst test replacement rest

/-- The coding attribute with the given entries and the mark that leaves the field out. -/
def skipAttribute (entries : List (List Token)) : Attribute :=
  .withList (.ofName ⟨Attribute.codableName, .origin⟩)
    (commaSeparated false (entries ++ [[Token.word "skip"]]))

/-- The field marked as left out: its first coding attribute is extended, or one is added. -/
def withSkip (field : Field) : Except Fault Field := do
  let isCodable (attr : Attribute) : Bool := attr.path.isName Attribute.codableName
  match field.attributes.find? isCodable with
  -- The entries are read again, so that the new one can stand behind them.
  | some attr =>
    let entries ← attr.readList readEntries
    return { field with
      attributes := replaceFirst isCodable (skipAttribute entries) field.attributes }
  | none => return { field with attributes := field.attributes ++ [skipAttribute []] }

/-- The field without the attributes of the given names. -/
def strip (names : List String) (field : Field) : Field :=
  { field with attributes := Attribute.strip names field.attributes }

end Field

end KeyedCoding
