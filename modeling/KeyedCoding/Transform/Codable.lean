import KeyedCoding.Generated.Conformance
import KeyedCoding.Generated.Decoder
import KeyedCoding.Generated.Encoder
import KeyedCoding.KeyMapping.Arguments
import KeyedCoding.Transform.Basic

/-! The coding transformer: a record gets its mapping as an attribute, and a decoder, an encoder and conformances. -/

namespace KeyedCoding

/-- The arguments of the coding transformer. -/
structure CodableArguments where
  policy : Option InclusionPolicy := none
  conform : Option (List Path) := none
  runtime : Option Path := none

namespace CodableArguments

open Reader

/-- Reads the policy that a string literal names. -/
def readPolicy : Reader InclusionPolicy := do
  let literal ← Grammar.argumentText
  match InclusionPolicy.ofName? literal.textValue with
  | some policy => return policy
  | none => failAt literal.pos (InclusionPolicy.unknownMessage literal.textValue)

/-- Reads a list of traits in parentheses. -/
def readConform (g : Grammar) : Reader (List Path) := do
  let ((paths, _), _, _) ← within .paren (commaList (g.path false))
  return paths

/-- Reads what follows the name of one argument; none may be given twice. -/
def readArgument (g : Grammar) (args : CodableArguments) (path : Path) :
    Reader CodableArguments := do
  if path.isName "policy" then
    -- A repetition is noticed before its value is read.
    if args.policy.isSome then failAt path.namePos "duplicate `policy` argument"
    else return { args with policy := some (← readPolicy) }
  else if path.isName "conform" then
    if args.conform.isSome then failAt path.namePos "duplicate `conform` argument"
    else return { args with conform := some (← readConform g) }
  else if path.isName "crate" then
    if args.runtime.isSome then failAt path.namePos "duplicate `crate` argument"
    else return { args with runtime := some (← quotedPath) }
  else failAt path.namePos "expected `policy`, `conform` or `crate`"

/-- Reads the arguments. -/
def ofTokens (tokens : List Token) : Except Fault CodableArguments :=
  Grammar.read (fun g => Grammar.arguments (readArgument g) {}) tokens

end CodableArguments

/-- A coding transformer; its policy may be fixed. -/
structure Codable where
  fixedPolicy : Option InclusionPolicy := none

namespace Codable

/-- The transformer that takes its policy from arguments or settings. -/
def standard : Codable := {}

/-- The transformer that leaves out every field that has a value of its own. -/
def ignoreInitialized : Codable := { fixedPolicy := some .includeOnlyNonInitialized }

/-- The name of the transformer. -/
def name (codable : Codable) : String :=
  if codable.fixedPolicy.isSome then "codable_ignore_initialized" else "codable"

/-- What the transformer does, in words. -/
def description (codable : Codable) : String :=
  if codable.fixedPolicy.isSome then
    "Synthesizes coding keys, decode and encode for fields without an initializer"
  else "Synthesizes coding keys, decode and encode for fields not marked `skip`"

/-- Reads the arguments; a fixed policy cannot be overridden. -/
def readArguments (codable : Codable) (tokens : List Token) : Synthesis CodableArguments := do
  let args ← Synthesis.ofReading (CodableArguments.ofTokens tokens)
  if codable.fixedPolicy.isSome && args.policy.isSome then
    .error (.invalidAttribute (.policyNotTaken codable.name) .origin)
  else return args

/-- The policy that holds: fixed, else given, else set. -/
def policy (codable : Codable) (args : CodableArguments) (config : Config) : InclusionPolicy :=
  (codable.fixedPolicy <|> args.policy).getD config.policy

/-- The coding impls of a record, as far as they are generated. -/
structure CodingImpls where
  decode : Option DecodeInitializer
  encode : Option EncodeImpl

namespace CodingImpls

/-- The coding impls for a mapping. -/
def ofMapping (inspection : Inspection) (mapping : KeyMapping) : CodingImpls where
  decode := match DecodeInitializer.ofMapping inspection mapping with
    | .ok init => init
    | .error _ => none
  encode := EncodeImpl.ofMapping? inspection mapping

/-- The findings about entries whose fields do not exist. -/
def unknownFields (inspection : Inspection) (mapping : KeyMapping) : List Diagnostic :=
  match DecodeInitializer.ofMapping inspection mapping with
  | .ok _ => []
  | .error unknown => unknown

/-- The declarations of the impls. -/
def declarations (impls : CodingImpls) (runtime : Path) : Synthesis (List Item) := do
  let decode ← impls.decode.toList.mapM (·.declaration runtime)
  let encode ← impls.encode.toList.mapM (·.declaration runtime)
  return decode ++ encode

/-- Generics with the bounds of all generated impls. -/
def boundGenerics (impls : CodingImpls) (generics : Generics) (runtime : Path) : Generics :=
  let decoding := match impls.decode with
    | some decode => decode.boundGenerics generics runtime
    | none => generics
  match impls.encode with
  | some encode => encode.boundGenerics decoding runtime
  | none => decoding

/-- Whether a record can be decoded and encoded, by what it has or by what is generated. -/
def complete (impls : CodingImpls) (record : Record) : Bool :=
  (record.existing.decoder || impls.decode.isSome) &&
    (record.existing.encoder || impls.encode.isSome)

end CodingImpls

/-- The traits that are requested: given, else set, else the marker of what is decoded and encoded. -/
def requested (args : CodableArguments) (context : Context) (runtime : Path) (complete : Bool) :
    Synthesis (List Path) :=
  match args.conform with
  | some paths => .ok paths
  | none =>
    if context.config.conformances.isSome then context.conformances
    else .ok (if complete then [Context.marker runtime] else [])

/-- Puts an attribute before the first one that derives, or last. -/
def insertBeforeDerive (attr : Attribute) : List Attribute → List Attribute
  | [] => [attr]
  | first :: rest =>
    if first.path.isName "derive" then attr :: first :: rest
    else first :: insertBeforeDerive attr rest

/-- The attributes of a record with its stored mapping, unless that is empty. -/
def attributesWith (attributes : List Attribute) (mapping : KeyMapping) (runtime : Path)
    (namesRuntime : Bool) : Synthesis (List Attribute) :=
  if mapping.isEmpty then .ok attributes
  else do return insertBeforeDerive (← mapping.toAttribute runtime namesRuntime) attributes

/-- The struct of a record with the given attributes and without coding options. -/
def stripped (record : Record) (attributes : List Attribute) : Struct :=
  ⟨{ record.head with attributes },
    .named (record.fields.map (Field.strip [Attribute.codableName])) record.trailing⟩

/-- Expands a record. -/
def expand (codable : Codable) (tokens : List Token) (item : Item) (context : Context) :
    Synthesis Expansion := do
  let args ← codable.readArguments tokens
  let inspection ← Inspection.ofItem codable.name item
  let record := inspection.record
  -- What is inspected may carry a mapping already, which is refused here.
  let mapping ← KeyMapping.ofRecord (codable.policy args context.config) inspection
  let runtime := args.runtime.getD context.runtime
  let impls := CodingImpls.ofMapping inspection mapping
  -- Code is generated for the impls before the traits are looked at.
  let coding ← impls.declarations runtime
  let requested ← requested args context runtime (impls.complete record)
  -- The empty impls are bounded as the two others are together.
  let conformance := (Conformance.ofRequest? record (Conformance.missing record requested)).map
    (·.withGenerics (impls.boundGenerics record.generics runtime))
  let conforming ← (conformance.map (·.declarations)).getD (.ok [])
  let attributes ← attributesWith record.head.attributes (mapping.stored inspection.fields) runtime
    args.runtime.isSome
  -- The findings stand in this order: those of the fields, of defaults, and of the mapping.
  let diagnostics := inspection.diagnostics ++ inspection.defaultDiagnostics ++
    CodingImpls.unknownFields inspection mapping
  return ⟨record.reassemble (stripped record attributes) (coding ++ conforming),
    context.config.apply diagnostics⟩

/-- The coding transformer. -/
def transformer (codable : Codable) : Transformer :=
  ⟨codable.name, codable.description, codable.expand⟩

end Codable

end KeyedCoding
