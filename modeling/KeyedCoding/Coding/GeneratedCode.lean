import KeyedCoding.Coding.KeyTable
import KeyedCoding.Coding.Synthesized
import KeyedCoding.Store.AccessorCode

/-!
Generated decoders and encoders read as code: which container they open, and which values they read and
write there, under which variants of the key type.
-/

namespace KeyedCoding

/-- Whether tokens are a variant of a key type. -/
def Token.isVariant (keys field : Name) : List Token → Bool
  | [.name type _, .punct a _ _, .punct b _ _, .name variant _] =>
    type == keys.spelling && [a, b] == [':', ':'] && variant == field.spelling
  | _ => false

namespace KeyTable

/-- The keys of all variants, in their order. -/
def keys (table : KeyTable) : List String := table.variants.filterMap table.keyOf?

end KeyTable

/-- What the code of a decoder says: the key type of its container, and the reads. -/
structure DecoderCode where
  keys : Name
  reads : List FieldRead

namespace DecoderCode

/-- What a method of a container reads for a field of a type. -/
def sourceOf? (method : String) (ty : Ty) : Option FieldSource :=
  match method with
  | "decode" => some (.decode ty)
  | "decode_if_present" => ty.optionInner?.map .decodeIfPresent
  | _ => none

/-- Reads what stands behind the type of a call: its variant and the question mark. -/
def afterCall? (keys field : Name) : List Token → Option (List Token)
  | .punct close _ _ :: .group .paren variant _ _ :: .punct question _ _ :: rest =>
    if [close, question] == ['>', '?'] && Token.isVariant keys field variant then some rest else none
  | _ => none

/-- Reads the call of a method of the container for a field; the tokens after it are left. -/
def callOf? (keys : Name) (field : FieldInfo) : List Token → Option (FieldSource × List Token)
  | .name container _ :: .punct dot _ _ :: .name method _ :: .punct a _ _ :: .punct b _ _ ::
      .punct opening _ _ :: rest =>
    if container == "container" && [dot, a, b, opening] == ['.', ':', ':', '<'] then do
      -- The method tells the source, and the source the type that has to be written out.
      let source ← sourceOf? method field.ty
      let rest ← Token.after? (← source.decodedType?).tokens rest
      return (source, ← afterCall? keys field.name rest)
    else none
  | _ => none

/-- Reads the expression for a field: its declared default, a call, or the default of its type. -/
def valueOf? (keys : Name) (field : FieldInfo) (tokens : List Token) :
    Option (FieldSource × List Token) :=
  match field.initializer with
  -- What has an accessor is no part of the value that is initialized.
  | some .accessor => none
  | some (.value expr) => (Token.after? expr.tokens tokens).map (.default expr, ·)
  | none =>
    -- A call is tried first, since a default of the type is no call of a method.
    (callOf? keys field tokens).or
      ((Token.after? (FieldSource.defaultTrait.tokens keys field.name) tokens).map (.defaultTrait, ·))

/-- Reads the fields of the initialized value, all of them, each up to its comma. -/
def readsOf? (keys : Name) : List FieldInfo → List Token → Option (List FieldRead)
  | [], [] => some []
  | field :: more, .name spelling pos :: .punct colon _ _ :: tokens =>
    if spelling == field.name.spelling && colon == ':' then
      match valueOf? keys field tokens with
      -- The comma stands behind the last field, too.
      | some (source, .punct ',' _ _ :: rest) =>
        (readsOf? keys more rest).map (⟨⟨spelling, pos⟩, source⟩ :: ·)
      | _ => none
    else none
  | _, _ => none

/-- What stands before the key type of the container that is opened. -/
def opening : List Token :=
  [Token.word "let", Token.word "container"] ++ Token.symbol "=" ++ [Token.word "decoder"] ++
    Token.symbol "." ++ [Token.word "container"] ++ Token.symbol "::" ++ Token.symbol "<"

/-- What stands between the key type and the initialized value. -/
def middle : List Token :=
  Token.symbol ">" ++ [Token.parens []] ++ Token.symbol "?" ++ Token.symbol ";" ++
    (Path.absolute ["core", "result", "Result", "Ok"]).tokens

/-- Reads the body of an initializer; fields with an accessor are no part of the value. -/
def ofBody? (fields : List FieldInfo) (body : List Token) : Option DecoderCode :=
  match Token.after? opening body with
  | some (.name keys pos :: rest) =>
    match Token.after? middle rest with
    | some [.group .paren [.name self _, .group .brace values _ _] _ _] =>
      if self == "Self" then
        (readsOf? ⟨keys, pos⟩ (fields.filter (!·.isAccessor)) values).map (⟨⟨keys, pos⟩, ·⟩)
      else none
    | _ => none
  | _ => none

/-- Reads the impl that decodes a record with given fields. -/
def ofImpl? (fields : List FieldInfo) (decl : Impl) : Option DecoderCode :=
  (decl.body? "init_from").bind (ofBody? fields)

/-- Decodes as the code says, under the keys that the impl of the key type gives. -/
def run (code : DecoderCode) (table : KeyTable) (meaning : Meaning) (value : Json) :
    Except DecodingError FieldValues := do
  let object ← KeyedObject.ofJson table.keys value
  code.reads.mapM fun read =>
    (read.source.run meaning object read.field ((table.keyOf? read.field).getD "")).map
      ((read.field, ·))

end DecoderCode

/-- What the code of an initializer says. -/
def DecodeInitializer.code (init : DecodeInitializer) : DecoderCode :=
  ⟨init.target.keysName, init.reads⟩

/-- A write as its statement says it. -/
structure WriteCode where
  field : Name
  ifPresent : Bool

/-- What the code of an encoder says: the key type of its container, and the writes. -/
structure EncoderCode where
  keys : Name
  writes : List WriteCode

namespace WriteCode

/-- Reads the method of a write and the value that it is given for a field. -/
def ofCall? (method : String) (field : Name) : List Token → Option WriteCode
  | [.punct amp _ _, .name self _, .punct dot _ _, .name found _] =>
    if method == "encode" && [amp, dot] == ['&', '.'] && [self, found] == ["self", field.spelling] then
      some ⟨field, false⟩
    else none
  | [.name self _, .punct dot _ _, .name found _, .punct point _ _, .name asRef _,
      .group .paren [] _ _] =>
    if method == "encode_if_present" && [dot, point] == ['.', '.'] &&
        [self, found, asRef] == ["self", field.spelling, "as_ref"] then
      some ⟨field, true⟩
    else none
  | _ => none

/-- The write with the value that its field has. -/
def request (table : KeyTable) (values : FieldValues) (write : WriteCode) : KeyedWrite :=
  let key := (table.keyOf? write.field).getD ""
  let value := values.get write.field
  if write.ifPresent then .ifPresent key value.toOption else .always key value

end WriteCode

namespace EncoderCode

/-- Reads the arguments of a write: a variant of the key type, and the value. -/
def writeOf? (keys : Name) (method : String) : List Token → Option WriteCode
  | .name type _ :: .punct a _ _ :: .punct b _ _ :: .name field pos :: .punct comma _ _ :: value =>
    if type == keys.spelling && [a, b, comma] == [':', ':', ','] then
      WriteCode.ofCall? method ⟨field, pos⟩ value
    else none
  | _ => none

/-- Reads statements that each write a field, up to the result. -/
def writesOf? (keys : Name) : List Token → Option (List WriteCode)
  | .name container _ :: .punct dot _ _ :: .name method _ :: .group .paren arguments _ _ ::
      .punct question _ _ :: .punct semi _ _ :: rest =>
    if container == "container" && [dot, question, semi] == ['.', '?', ';'] then
      (writeOf? keys method arguments).bind fun write => (writesOf? keys rest).map (write :: ·)
    else none
  | rest => if Token.renderAll rest == ":: core :: result :: Result :: Ok (())" then some [] else none

/-- What stands before the key type of the container that is opened. -/
def opening : List Token :=
  [Token.word "let", Token.word "mut", Token.word "container"] ++ Token.symbol "=" ++
    [Token.word "encoder"] ++ Token.symbol "." ++ [Token.word "container"] ++ Token.symbol "::" ++
    Token.symbol "<"

/-- Reads the body of the encoding member. -/
def ofBody? (body : List Token) : Option EncoderCode :=
  match Token.after? opening body with
  | some (.name keys pos :: rest) =>
    (Token.after? (Token.symbol ">" ++ [Token.parens []] ++ Token.symbol ";") rest).bind fun rest =>
      (writesOf? ⟨keys, pos⟩ rest).map (⟨⟨keys, pos⟩, ·⟩)
  | _ => none

/-- Reads the impl that encodes a record. -/
def ofImpl? (decl : Impl) : Option EncoderCode := (decl.body? "encode").bind ofBody?

/-- Encodes as the code says, under the keys that the impl of the key type gives. -/
def run (code : EncoderCode) (table : KeyTable) (values : FieldValues) : Except EncodingError Json :=
  (Encoder.writeAll {} (code.writes.map (WriteCode.request table values))).map Encoder.toJson

end EncoderCode

/-- What the statement of a write says. -/
def FieldWrite.code (write : FieldWrite) : WriteCode := ⟨write.field, write.ifPresent⟩

/-- What the code of an encoding impl says. -/
def EncodeImpl.code (encode : EncodeImpl) : EncoderCode :=
  ⟨encode.target.keysName, encode.writes.map FieldWrite.code⟩

end KeyedCoding
