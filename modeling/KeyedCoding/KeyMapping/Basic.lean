import KeyedCoding.Record.Inspection

/-! Key mappings: which fields are coded, and under which keys. -/

namespace KeyedCoding

/-- Which fields become keys. -/
inductive InclusionPolicy where
  | includeAllExceptExcluded
  | includeOnlyNonInitialized
  deriving DecidableEq, Repr, Inhabited

namespace InclusionPolicy

/-- The policy where none is named. -/
def standard : InclusionPolicy := includeAllExceptExcluded

/-- The name of a policy. -/
def name : InclusionPolicy → String
  | includeAllExceptExcluded => "include-all-except-excluded"
  | includeOnlyNonInitialized => "include-only-non-initialized"

/-- The policy with a name. -/
def ofName? (text : String) : Option InclusionPolicy :=
  [includeAllExceptExcluded, includeOnlyNonInitialized].find? (·.name == text)

/-- The words for a text that names no policy. -/
def unknownMessage (text : String) : String :=
  "unknown policy `" ++ text ++ "`, expected `" ++ includeAllExceptExcluded.name ++ "` or `" ++
    includeOnlyNonInitialized.name ++ "`"

/-- Whether a field becomes a key. -/
def includes (policy : InclusionPolicy) (field : FieldInfo) : Bool :=
  match policy with
  | includeAllExceptExcluded => !field.skipped
  | includeOnlyNonInitialized => !field.skipped && !field.isInitialized

end InclusionPolicy

/-- A field and the key that it is coded under. -/
structure KeyEntry where
  field : Name
  key : String
  deriving Repr

/-- Fields with their keys, in order. -/
structure KeyMapping where
  entries : List KeyEntry := []
  deriving Repr

namespace KeyMapping

/-- The mapping with one more entry at its end. -/
def push (mapping : KeyMapping) (field : Name) (key : String) : KeyMapping :=
  ⟨mapping.entries ++ [⟨field, key⟩]⟩

/-- Whether a mapping has no entries. -/
def isEmpty (mapping : KeyMapping) : Bool := mapping.entries.isEmpty

/-- The number of entries. -/
def size (mapping : KeyMapping) : Nat := mapping.entries.length

/-- The entry of a field. -/
def entry? (mapping : KeyMapping) (field : Name) : Option KeyEntry :=
  mapping.entries.find? (·.field == field)

/-- The entry under a key. -/
def entryForKey? (mapping : KeyMapping) (key : String) : Option KeyEntry :=
  mapping.entries.find? (·.key == key)

/-- Whether a field has an entry. -/
def contains (mapping : KeyMapping) (field : Name) : Bool := (mapping.entry? field).isSome

/-- The plain names of the fields. -/
def fieldNames (mapping : KeyMapping) : List String := mapping.entries.map (·.field.plain)

/-- Adds an entry unless its key is taken; the clash is reported at `pos`. -/
def insert (mapping : KeyMapping) (field : Name) (key : String) (pos : Position) :
    Synthesis KeyMapping :=
  match mapping.entryForKey? key with
  | some first => .error (.invalidAttribute (.keyClash key first.field.plain field.plain) pos)
  | none => .ok (mapping.push field key)

/-- Adds the entry of a field. -/
def insertField (mapping : KeyMapping) (field : FieldInfo) : Synthesis KeyMapping :=
  mapping.insert field.name field.key field.pos

/-- The mapping of those fields that a policy includes. -/
def ofFields (policy : InclusionPolicy) (fields : List FieldInfo) : Synthesis KeyMapping :=
  (fields.filter policy.includes).foldlM insertField {}

/-- The mapping of a record; one that exists already is never overwritten. -/
def ofRecord (policy : InclusionPolicy) (inspection : Inspection) : Synthesis KeyMapping :=
  match inspection.record.existing.keyMapping with
  | some pos => .error (.conflictingMapping inspection.record.name.spelling pos)
  | none => ofFields policy inspection.fields

/-- Whether a field is known to have an accessor. -/
def namesAccessor (fields : List FieldInfo) (entry : KeyEntry) : Bool :=
  fields.any fun field => field.name == entry.field && field.isAccessor

/-- The entries whose fields are stored; a field with an accessor has no storage. -/
def stored (mapping : KeyMapping) (fields : List FieldInfo) : KeyMapping :=
  ⟨mapping.entries.filter fun entry => !namesAccessor fields entry⟩

end KeyMapping

end KeyedCoding
