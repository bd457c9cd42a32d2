import KeyedCoding.KeyMapping.Declarations
import KeyedCoding.Transform.Basic

/-! The key type transformer: a record gets the key type of a mapping that is given as arguments. -/

namespace KeyedCoding.KeyType

/-- The name of the transformer. -/
def name : String := KeyMapping.attributeName

/-- What the transformer does, in words. -/
def description : String := "Emits the CodingKey enum and the KeyMapped impl for a field mapping"

/-- Refuses a record that has a mapping already. -/
def checkUnmapped (record : Record) : Synthesis Unit :=
  match record.existing.keyMapping with
  | some pos => .error (.conflictingMapping record.name.spelling pos)
  | none => .ok ()

/-- Refuses a mapping that names a field which the record does not have. -/
def checkFields (inspection : Inspection) (mapping : KeyMapping) : Synthesis Unit :=
  match mapping.entries.find? fun entry => !inspection.fields.any (·.name == entry.field) with
  | some entry =>
    .error (.unknownField inspection.record.name.spelling entry.field.plain entry.field.pos)
  | none => .ok ()

/-- The declarations of the key type; a type of the runtime has to open the traits of its impls. -/
def declarations (mapping : KeyMapping) (record : Record) (runtime : Path) : Synthesis (List Item) :=
  if runtime.fitsType then mapping.declarations record runtime else .error .unspliceable

/-- Expands a record; an empty mapping has no key type. -/
def expand (tokens : List Token) (item : Item) (context : Context) : Synthesis Expansion := do
  let args ← MappingArguments.ofTokens tokens
  let inspection ← Inspection.ofItem name item
  let record := inspection.record
  -- The mapping is looked for after the fields have been described.
  checkUnmapped record
  checkFields inspection args.mapping
  -- Without entries the item is given back as it was written.
  if args.mapping.isEmpty then return ⟨[item], []⟩
  else
    let generated ← declarations args.mapping record (args.runtime.getD context.runtime)
    return ⟨record.reassemble record.decl generated, []⟩

/-- The key type transformer. -/
def transformer : Transformer := ⟨name, description, expand⟩

end KeyedCoding.KeyType
