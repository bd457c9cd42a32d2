import KeyedCoding.Coding.Decoding
import KeyedCoding.KeyMapping.Declarations

/-!
Key types at work: what a generated impl says of the keys of its variants, and how keys are looked
up by it.
-/

namespace KeyedCoding

namespace Member

/-- Whether a member is a function of a name. -/
def isFunction (member : Member) (name : String) : Bool :=
  match member.tokens with
  | .name keyword _ :: .name found _ :: _ => keyword == "fn" && found == name
  | _ => false

/-- The tokens between the braces that close a member. -/
def body? (member : Member) : Option (List Token) :=
  match member.tokens.getLast? with
  | some (.group .brace body _ _) => some body
  | _ => none

end Member

/-- The body of the first function of a name. -/
def Impl.body? (decl : Impl) (name : String) : Option (List Token) :=
  (decl.members.find? (·.isFunction name)).bind Member.body?

/-- What the impl of a key type says: the arms that give keys, and the list of all variants. -/
structure KeyTable where
  arms : List (Name × String)
  variants : List Name

namespace KeyTable

/-- Reads arms that each give a string literal for a variant. -/
def armsOf? : List Token → Option (List (Name × String))
  | [] => some []
  | .name self _ :: .punct a _ _ :: .punct b _ _ :: .name spelling pos :: .punct c _ _ ::
      .punct d _ _ :: .literal text _ :: .punct e _ _ :: rest =>
    if self == "Self" && [a, b, c, d, e] == [':', ':', '=', '>', ','] then
      -- The arm is that of one variant and ends with its comma.
      (Text.Quoted.value? text).bind fun key => (armsOf? rest).map ((⟨spelling, pos⟩, key) :: ·)
    else none
  | _ => none

/-- Reads variants with commas between them. -/
def variantsOf? : List Token → Option (List Name)
  | [] => some []
  -- The last variant may stand without a comma.
  | [.name self _, .punct a _ _, .punct b _ _, .name spelling pos] =>
    if self == "Self" && [a, b] == [':', ':'] then some [⟨spelling, pos⟩] else none
  | .name self _ :: .punct a _ _ :: .punct b _ _ :: .name spelling pos :: .punct c _ _ :: rest =>
    if self == "Self" && [a, b, c] == [':', ':', ','] then
      (variantsOf? rest).map (⟨spelling, pos⟩ :: ·)
    else none
  | _ => none

/-- The table of an impl: one member matches on the variant, and another one lists all variants. -/
def ofImpl? (decl : Impl) : Option KeyTable :=
  match decl.body? "string_value", decl.body? "all_keys" with
  | some [.name "match" _, .name "self" _, .group .brace arms _ _],
    some [.punct '&' _ _, .group .bracket variants _ _] =>
    (armsOf? arms).bind fun arms => (variantsOf? variants).map fun variants => ⟨arms, variants⟩
  | _, _ => none

/-- The key of a variant: what the first arm for it gives. -/
def keyOf? (table : KeyTable) (variant : Name) : Option String :=
  (table.arms.find? (·.1 == variant)).map (·.2)

/-- The variant that a text leads to: the first of all variants with that key. -/
def variantOf? (table : KeyTable) (text : String) : Option Name :=
  table.variants.find? fun variant => table.keyOf? variant == some text

/-- The variants that are present in an object, even with null, in their order. -/
def presentVariants (table : KeyTable) (object : KeyedObject) : List Name :=
  table.variants.filter fun variant => (table.keyOf? variant).any object.contains

end KeyTable

end KeyedCoding
