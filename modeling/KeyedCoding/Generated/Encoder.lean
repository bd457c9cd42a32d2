import KeyedCoding.Bounds
import KeyedCoding.KeyMapping.Basic

/-! The generated encoder: every mapped stored field is written under its key, an optional one only if present. -/

namespace KeyedCoding

/-- A write of a field. -/
structure FieldWrite where
  field : Name
  ty : Ty
  ifPresent : Bool

/-- An impl that encodes a type. -/
structure EncodeImpl where
  target : Target
  writes : List FieldWrite

namespace FieldWrite

/-- The field of the encoded value. -/
def fieldTokens (write : FieldWrite) : List Token :=
  [Token.word "self"] ++ Token.symbol "." ++ [write.field.token]

/-- What is written. -/
def valueTokens (write : FieldWrite) : List Token :=
  if write.ifPresent then
    write.fieldTokens ++ Token.symbol "." ++ [Token.word "as_ref", Token.parens []]
  else Token.symbol "&" ++ write.fieldTokens

/-- The statement that writes a field. -/
def tokens (keys : Name) (write : FieldWrite) : List Token :=
  [Token.word "container"] ++ Token.symbol "." ++
    [Token.word (if write.ifPresent then "encode_if_present" else "encode"),
     Token.parens ([keys.token] ++ Token.symbol "::" ++ [write.field.token] ++ Token.symbol "," ++
      write.valueTokens)] ++
    Token.symbol "?" ++ Token.symbol ";"

end FieldWrite

namespace EncodeImpl

/-- The trait that written types have to implement. -/
def bound (runtime : Path) : Path := runtime.extend ["__private", "Serialize"]

/-- Generics with the bounds that the impl needs. -/
def boundGenerics (encode : EncodeImpl) (generics : Generics) (runtime : Path) : Generics :=
  generics.withFieldBounds (encode.writes.map (·.ty)) (bound runtime)

/-- The encoder that is written to. -/
def encoderType (runtime : Path) : Ty := .reference none true (.path (runtime.extend ["Encoder"]))

/-- The result of encoding. -/
def resultTokens (runtime : Path) : List Token :=
  (Path.absolute ["core", "result", "Result"]).tokens ++ Token.symbol "<" ++ [Token.parens []] ++
    Token.symbol "," ++ (runtime.extend ["EncodingError"]).tokens ++ Token.symbol ">"

/-- The body of the encoding member. -/
def bodyTokens (encode : EncodeImpl) : List Token :=
  [Token.word "let", Token.word "mut", Token.word "container"] ++ Token.symbol "=" ++
    [Token.word "encoder"] ++ Token.symbol "." ++ [Token.word "container"] ++ Token.symbol "::" ++
    Token.symbol "<" ++ [encode.target.keysName.token] ++ Token.symbol ">" ++ [Token.parens []] ++
    Token.symbol ";" ++ encode.writes.flatMap (FieldWrite.tokens encode.target.keysName) ++
    (Path.absolute ["core", "result", "Result", "Ok"]).tokens ++ [Token.parens [Token.parens []]]

/-- The encoding member of the impl. -/
def member (encode : EncodeImpl) (runtime : Path) : Member where
  tokens :=
    [Token.word "fn", Token.word "encode",
      Token.parens (Token.symbol "&" ++ [Token.word "self"] ++ Token.symbol "," ++
        [Token.word "encoder"] ++ Token.symbol ":" ++ (encoderType runtime).tokens ++
        Token.symbol ",")] ++
      Token.symbol "->" ++ resultTokens runtime ++ [Token.braces encode.bodyTokens]
  params := some [encoderType runtime]

/-- Whether every field can be named in the generated code. -/
def fits (encode : EncodeImpl) : Bool := encode.writes.all (·.field.spelling != "_")

/-- The impl that encodes the type; a type of the runtime has to open its trait. -/
def declaration (encode : EncodeImpl) (runtime : Path) : Synthesis Item :=
  if runtime.fitsType && encode.fits then
    .ok (Target.implement ⟨encode.target.name, encode.boundGenerics encode.target.generics runtime⟩
      (some (runtime.extend ["Encodable"])) [encode.member runtime])
  else .error .unspliceable

/-- Whether a field is written: it is mapped and has storage. -/
def isWritten (mapping : KeyMapping) (field : FieldInfo) : Bool :=
  mapping.contains field.name && !field.isAccessor

/-- The write of a field. -/
def writeOf (field : FieldInfo) : FieldWrite := ⟨field.name, field.ty, field.ty.isOptional⟩

/-- The writes of those fields that are written. -/
def writesOf (mapping : KeyMapping) (fields : List FieldInfo) : List FieldWrite :=
  (fields.filter (isWritten mapping)).map writeOf

/-- The impl for a record; none if there is one already or no field is written. -/
def ofMapping? (inspection : Inspection) (mapping : KeyMapping) : Option EncodeImpl :=
  let writes := writesOf mapping inspection.fields
  if inspection.record.existing.encoder || writes.isEmpty then none
  else some ⟨inspection.record.target, writes⟩

end EncodeImpl

end KeyedCoding
