import KeyedCoding.Bounds
import KeyedCoding.KeyMapping.Basic

/-! The generated decoder: an initializer that reads every coded field from a container and fills in the others. -/

namespace KeyedCoding

/-- Where the value of a field comes from. -/
inductive FieldSource where
  | decode (ty : Ty)
  | decodeIfPresent (ty : Ty)
  | default (expr : Expr)
  | defaultTrait

/-- A field of the initialized value and where it comes from. -/
structure FieldRead where
  field : Name
  source : FieldSource

/-- An initializer that decodes a type. -/
structure DecodeInitializer where
  target : Target
  reads : List FieldRead

namespace FieldSource

/-- The type that is read from the container. -/
def decodedType? : FieldSource → Option Ty
  | decode ty => some ty
  | decodeIfPresent ty => some ty
  | default _ => none
  | defaultTrait => none

/-- A read from the container as an expression. -/
def readTokens (method : String) (ty : Ty) (keys : Name) (field : Name) : List Token :=
  [Token.word "container"] ++ Token.symbol "." ++ [Token.word method] ++ Token.symbol "::" ++
    Token.symbol "<" ++ ty.tokens ++ Token.symbol ">" ++
    [Token.parens ([keys.token] ++ Token.symbol "::" ++ [field.token])] ++ Token.symbol "?"

/-- The expression that gives the value of a field. -/
def tokens (keys : Name) (field : Name) : FieldSource → List Token
  | decode ty => readTokens "decode" ty keys field
  | decodeIfPresent ty => readTokens "decode_if_present" ty keys field
  | default expr => expr.tokens
  | defaultTrait =>
    (Path.absolute ["core", "default", "Default", "default"]).tokens ++ [Token.parens []]

end FieldSource

namespace FieldRead

/-- Whether a field is read from the container. -/
def isDecoded (read : FieldRead) : Bool := read.source.decodedType?.isSome

/-- A field of the initialized value. -/
def tokens (keys : Name) (read : FieldRead) : List Token :=
  [read.field.token] ++ Token.symbol ":" ++ read.source.tokens keys read.field ++ Token.symbol ","

end FieldRead

namespace DecodeInitializer

/-- The fields that are read from the container. -/
def decodedFields (init : DecodeInitializer) : List Name :=
  (init.reads.filter FieldRead.isDecoded).map (·.field)

/-- The types that are read from the container. -/
def decodedTypes (init : DecodeInitializer) : List Ty :=
  init.reads.filterMap (·.source.decodedType?)

/-- The trait that decoded types have to implement. -/
def bound (runtime : Path) : Path := runtime.extend ["__private", "DeserializeOwned"]

/-- Generics with the bounds that the initializer needs. -/
def boundGenerics (init : DecodeInitializer) (generics : Generics) (runtime : Path) : Generics :=
  generics.withFieldBounds init.decodedTypes (bound runtime)

/-- The decoder that an initializer takes. -/
def decoderType (runtime : Path) : Ty :=
  .reference none false
    (.path ⟨runtime.leading, runtime.segments ++
      [⟨⟨"Decoder", .origin⟩, .angle false [.lifetime "'_"] false⟩]⟩)

/-- The value of the initialized type. -/
def literalTokens (init : DecodeInitializer) : List Token :=
  [Token.word "Self",
    Token.braces (init.reads.flatMap (FieldRead.tokens init.target.keysName))]

/-- The result of an initializer. -/
def resultTokens (runtime : Path) : List Token :=
  (Path.absolute ["core", "result", "Result"]).tokens ++ Token.symbol "<" ++ [Token.word "Self"] ++
    Token.symbol "," ++ (runtime.extend ["DecodingError"]).tokens ++ Token.symbol ">"

/-- The body of the initializer. -/
def bodyTokens (init : DecodeInitializer) : List Token :=
  [Token.word "let", Token.word "container"] ++ Token.symbol "=" ++ [Token.word "decoder"] ++
    Token.symbol "." ++ [Token.word "container"] ++ Token.symbol "::" ++ Token.symbol "<" ++
    [init.target.keysName.token] ++ Token.symbol ">" ++ [Token.parens []] ++ Token.symbol "?" ++
    Token.symbol ";" ++ (Path.absolute ["core", "result", "Result", "Ok"]).tokens ++
    [Token.parens init.literalTokens]

/-- The initializer as a member of an impl. -/
def member (init : DecodeInitializer) (runtime : Path) : Member where
  tokens :=
    [Token.word "fn", Token.word "init_from",
      Token.parens ([Token.word "decoder"] ++ Token.symbol ":" ++ (decoderType runtime).tokens ++
        Token.symbol ",")] ++
      Token.symbol "->" ++ resultTokens runtime ++ [Token.braces init.bodyTokens]
  params := some [decoderType runtime]

/-- Whether every field can be named in the generated code. -/
def fits (init : DecodeInitializer) : Bool := init.reads.all (·.field.spelling != "_")

/-- The impl that decodes the type; a type of the runtime has to open its trait. -/
def declaration (init : DecodeInitializer) (runtime : Path) : Synthesis Item :=
  if runtime.fitsType && init.fits then
    .ok (Target.implement ⟨init.target.name, init.boundGenerics init.target.generics runtime⟩
      (some (runtime.extend ["Decodable"])) [init.member runtime])
  else .error .unspliceable

/-- Whether a field is read from the container: it is mapped and has no value of its own. -/
def isEligible (mapping : KeyMapping) (field : FieldInfo) : Bool :=
  mapping.contains field.name && !field.isInitialized

/-- Where the value of a field comes from; a field with an accessor has none. -/
def sourceOf? (mapping : KeyMapping) (field : FieldInfo) : Option FieldSource :=
  if isEligible mapping field then
    -- An optional field that is missing is absent, and any other one that is missing is a fault.
    match field.ty.optionInner? with
    | some inner => some (.decodeIfPresent inner)
    | none => some (.decode field.ty)
  else
    match field.initializer with
    | some .accessor => none
    -- A declared default stands, whether the field is mapped or not.
    | some (.value expr) => some (.default expr)
    | none => some .defaultTrait

/-- The read of a field. -/
def readOf? (mapping : KeyMapping) (field : FieldInfo) : Option FieldRead :=
  (sourceOf? mapping field).map fun source => ⟨field.name, source⟩

/-- The finding about an entry whose field does not exist. -/
def unknownField (typeName : Name) (entry : KeyEntry) : Diagnostic :=
  { code := "CS003"
    name := "unknown-field"
    severity := .error
    message := "`" ++ typeName.spelling ++ "` has no field named `" ++ entry.field.plain ++ "`"
    pos := entry.field.pos }

/-- The findings about entries whose fields do not exist. -/
def unknownFields (inspection : Inspection) (mapping : KeyMapping) : List Diagnostic :=
  (mapping.entries.filter fun entry => !inspection.fields.any (·.name == entry.field)).map
    (unknownField inspection.record.name)

/-- The initializer for a record; none if there is one already or no field is read. -/
def ofMapping (inspection : Inspection) (mapping : KeyMapping) :
    Except (List Diagnostic) (Option DecodeInitializer) :=
  match unknownFields inspection mapping with
  | [] =>
    if inspection.record.existing.decoder || !inspection.fields.any (isEligible mapping) then .ok none
    else .ok (some ⟨inspection.record.target, inspection.fields.filterMap (readOf? mapping)⟩)
  | unknown => .error unknown

end DecodeInitializer

namespace FieldInfo

/-- Whether a field keeps its default for good, though it could be decoded. -/
def keepsDefault (field : FieldInfo) : Bool :=
  field.isInitialized && field.readonly && !field.skipped

/-- The edit that leaves a field out. -/
def skipFix? (field : FieldInfo) (decl : Field) : Option FixIt :=
  match decl.withSkip with
  | .ok marked =>
    some ⟨"mark the field as excluded with `skip`", field.pos, Token.renderAll marked.tokens⟩
  | .error _ => none

/-- The finding about a default that decoding never replaces. -/
def immutableDefault (field : FieldInfo) (decl : Field) : Diagnostic :=
  { code := "CS001"
    name := "immutable-default"
    severity := .warning
    message :=
      "immutable field `" ++ field.name.plain ++
        "` with a default is never repopulated by decoding"
    pos := field.pos
    fixIt := field.skipFix? decl }

/-- The finding about a field, if there is one; the field is looked up among the declared ones. -/
def immutableDefault? (decls : List Field) (field : FieldInfo) : Option Diagnostic :=
  (decls.find? (·.name == field.name)).map field.immutableDefault

end FieldInfo

namespace Inspection

/-- The findings about defaults that decoding never replaces. -/
def defaultDiagnostics (inspection : Inspection) : List Diagnostic :=
  (inspection.fields.filter FieldInfo.keepsDefault).filterMap
    (FieldInfo.immutableDefault? inspection.record.fields)

end Inspection

end KeyedCoding
