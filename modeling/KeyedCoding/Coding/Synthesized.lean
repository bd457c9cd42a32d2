import KeyedCoding.Coding.Decoding
import KeyedCoding.Coding.Encoding
import KeyedCoding.Generated.Decoder
import KeyedCoding.Generated.Encoder
import KeyedCoding.KeyMapping.Keys

/-! Generated decoders and encoders at work: what the reads and writes of a record do with data. -/

namespace KeyedCoding

/-- The values of the fields of a record, in order. -/
abbrev FieldValues := List (Name × Datum)

namespace FieldValues

/-- The value of a field. -/
def get (values : FieldValues) (field : Name) : Datum :=
  ((values.find? (·.1 == field)).map (·.2)).getD .absent

end FieldValues

/-- What the types and the defaults of fields mean. -/
structure Meaning where
  read : Ty → Json → Except Misfit Datum
  evaluate : Name → Expr → Datum
  standard : Name → Datum

namespace FieldSource

/-- The value that a source gives to a field with a key. -/
def run (meaning : Meaning) (object : KeyedObject) (field : Name) (key : String) :
    FieldSource → Except DecodingError Datum
  | decode ty => object.decode (meaning.read ty) key
  | decodeIfPresent ty => (object.decodeIfPresent (meaning.read ty) key).map Datum.ofOption
  | default expr => .ok (meaning.evaluate field expr)
  | defaultTrait => .ok (meaning.standard field)

end FieldSource

namespace FieldRead

/-- Reads a field. Fields that are decoded have keys, and the others need none. -/
def run (meaning : Meaning) (mapping : KeyMapping) (object : KeyedObject) (read : FieldRead) :
    Except DecodingError (Name × Datum) :=
  (read.source.run meaning object read.field ((mapping.keyOf? read.field).getD "")).map
    ((read.field, ·))

end FieldRead

namespace DecodeInitializer

/-- Decodes the fields one after another; the first error is reported. -/
def run (init : DecodeInitializer) (meaning : Meaning) (mapping : KeyMapping) (value : Json) :
    Except DecodingError FieldValues := do
  let object ← KeyedObject.ofJson mapping.keys value
  init.reads.mapM (FieldRead.run meaning mapping object)

end DecodeInitializer

namespace FieldWrite

/-- The write of a field with the value that it has. -/
def request (mapping : KeyMapping) (values : FieldValues) (write : FieldWrite) : KeyedWrite :=
  let key := (mapping.keyOf? write.field).getD ""
  let value := values.get write.field
  if write.ifPresent then .ifPresent key value.toOption else .always key value

end FieldWrite

namespace EncodeImpl

/-- Encodes the fields one after another; the first error is reported. -/
def run (encode : EncodeImpl) (mapping : KeyMapping) (values : FieldValues) :
    Except EncodingError Json :=
  (Encoder.writeAll {} (encode.writes.map (FieldWrite.request mapping values))).map Encoder.toJson

end EncodeImpl

end KeyedCoding
