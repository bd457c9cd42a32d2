import KeyedCoding.Coding.Meaning
import KeyedCoding.Transform.Codable
import KeyedCoding.Transform.SecureStorage

/-! Records in use: what their declarations amount to once they are expanded. -/

namespace KeyedCoding

/-- Builds the field values of a record from data. -/
abbrev RecordDecoder := Json → Except DecodingError FieldValues

/-- Writes the field values of a record as data. -/
abbrev RecordEncoder := FieldValues → Except EncodingError Json

/-- A record in use: its keys, its decoder and encoder if it has them, and its fields in secure storage. -/
structure CodedRecord where
  mapping : KeyMapping
  decode : Option RecordDecoder
  encode : Option RecordEncoder
  secured : List SecureField

namespace CodedRecord

/-- A record that has keys and nothing else. -/
def ofMapping (mapping : KeyMapping) : CodedRecord := ⟨mapping, none, none, []⟩

/-- The fields of a record that are in secure storage. -/
def securedFields (record : Record) : Synthesis (List SecureField) := do
  let store ← SecureField.sharedStore Context.standardRuntime
  return SecureStorage.secured (← record.fields.mapM (SecureStorage.place store))

/-- The record of a declaration, with the generated decoder or else one of its own. -/
def ofItem (policy : InclusionPolicy) (parameters : List (String × Schema))
    (own : Option RecordDecoder) (item : Item) : Synthesis CodedRecord := do
  let inspection ← Inspection.ofItem Codable.standard.name item
  let mapping ← KeyMapping.ofRecord policy inspection
  let impls := Codable.CodingImpls.ofMapping inspection mapping
  -- The key type that is left beside the struct has the keys of the stored fields.
  let stored := mapping.stored inspection.fields
  let meaning := Meaning.ofFields parameters inspection.fields
  -- The decoder of the declaration itself is used only where none is generated.
  return ⟨stored, impls.decode.map (·.run meaning stored) <|> own, impls.encode.map (·.run stored),
    ← securedFields inspection.record⟩

/-- The secure field with a name. -/
def secured? (record : CodedRecord) (name : String) : Option SecureField :=
  record.secured.find? (·.name.spelling == name)

end CodedRecord

end KeyedCoding
