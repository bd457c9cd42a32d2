import KeyedCoding.KeyMapping.Arguments

/-! The declarations of a key type: an enum with a variant for each entry, and the impls that give its keys. -/

namespace KeyedCoding

namespace KeyMapping

/-- An attribute with a text, as documentation has it. -/
def docAttribute (text : String) : Attribute :=
  ⟨.origin, false, ⟨.ofName ⟨"doc", .origin⟩,
    .value .origin ⟨[.literal (Text.Quoted.literal text) .origin], []⟩⟩⟩

/-- An attribute with a list of names. -/
def listAttribute (name : String) (names : List String) : Attribute :=
  .withList (.ofName ⟨name, .origin⟩)
    (commaSeparated false (names.map fun spelling => [Token.word spelling]))

/-- A variant without fields. -/
def variant (entry : KeyEntry) : Variant := ⟨[], entry.field, .unit, []⟩

/-- The enum of the keys. -/
def keyEnum (mapping : KeyMapping) (record : Record) : Item :=
  .enum
    { head :=
        { attributes :=
            [docAttribute ("Coding keys of [`" ++ record.name.spelling ++ "`]."),
             listAttribute "derive" ["Debug", "Clone", "Copy", "PartialEq", "Eq", "Hash"],
             -- The variants are called like the fields, whatever their case.
             listAttribute "allow" ["non_camel_case_types"]]
          visibility := record.head.visibility
          pos := .origin
          name := record.target.keysName
          generics := .empty }
      variants := mapping.entries.map variant
      trailing := false }

/-- A variant of the enum, seen from inside its impl. -/
def selfVariant (entry : KeyEntry) : List Token :=
  Token.word "Self" :: Token.symbol "::" ++ [entry.field.token]

/-- The arm that gives the key of a variant. -/
def keyArm (entry : KeyEntry) : List Token :=
  selfVariant entry ++ Token.symbol "=>" ++ [entry.keyToken] ++ Token.symbol ","

/-- The type of texts that live forever. -/
def staticText : List Token :=
  Token.symbol "&" ++ [.lifetime "'static" .origin, Token.word "str"]

/-- The member that gives the key of a variant. -/
def stringValue (mapping : KeyMapping) : Member where
  tokens :=
    [Token.word "fn", Token.word "string_value", Token.parens [Token.word "self"]] ++
      Token.symbol "->" ++ staticText ++
      [Token.braces [Token.word "match", Token.word "self",
        Token.braces (mapping.entries.flatMap keyArm)]]
  params := some []

/-- The member that lists all variants. -/
def allKeys (mapping : KeyMapping) : Member where
  tokens :=
    [Token.word "fn", Token.word "all_keys", Token.parens []] ++ Token.symbol "->" ++
      Token.symbol "&" ++ [.lifetime "'static" .origin, Token.brackets [Token.word "Self"]] ++
      [Token.braces (Token.symbol "&" ++
        [Token.brackets (commaSeparated false (mapping.entries.map selfVariant))])]
  params := some []

/-- The impl that connects the enum to its keys. -/
def codingKeyImpl (mapping : KeyMapping) (record : Record) (runtime : Path) : Item :=
  Target.implement ⟨record.target.keysName, .empty⟩ (some (runtime.extend ["CodingKey"]))
    [mapping.stringValue, mapping.allKeys]

/-- The member that names the enum of a type. -/
def keysMember (record : Record) : Member where
  tokens :=
    [Token.word "type", Token.word "CodingKeys"] ++ Token.symbol "=" ++
      [record.target.keysName.token] ++ Token.symbol ";"
  params := none

/-- The impl that connects the record to its enum. -/
def keyMappedImpl (record : Record) (runtime : Path) : Item :=
  record.target.implement (some (runtime.extend ["KeyMapped"])) [keysMember record]

/-- Whether every field can name a variant. -/
def fitsVariants (mapping : KeyMapping) : Bool :=
  mapping.entries.all (·.field.spelling != "_")

/-- The declarations of a key type. -/
def declarations (mapping : KeyMapping) (record : Record) (runtime : Path) : Synthesis (List Item) :=
  if mapping.fitsVariants then
    .ok [mapping.keyEnum record, mapping.codingKeyImpl record runtime, keyMappedImpl record runtime]
  else .error .unspliceable

end KeyMapping

end KeyedCoding
