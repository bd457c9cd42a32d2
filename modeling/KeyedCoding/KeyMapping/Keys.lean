import KeyedCoding.KeyMapping.Basic

/-! The keys of a mapping at work: each field has its key, and a key leads back to its field. -/

namespace KeyedCoding.KeyMapping

/-- All keys, in order. -/
def keys (mapping : KeyMapping) : List String := mapping.entries.map (·.key)

/-- All fields, in order. -/
def fields (mapping : KeyMapping) : List Name := mapping.entries.map (·.field)

/-- The key of a field. -/
def keyOf? (mapping : KeyMapping) (field : Name) : Option String :=
  (mapping.entry? field).map (·.key)

/-- The field that a key leads to: the first one with that key. -/
def fieldOf? (mapping : KeyMapping) (key : String) : Option Name :=
  (mapping.entryForKey? key).map (·.field)

end KeyedCoding.KeyMapping
