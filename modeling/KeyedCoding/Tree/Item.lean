import KeyedCoding.Tree.Attribute
import KeyedCoding.Tree.Generics

/-! Declarations: structs, enums, unions, impls and modules as trees, everything else as tokens. -/

namespace KeyedCoding

/-- A named field. -/
structure Field where
  attributes : List Attribute
  visibility : List Token
  name : Name
  ty : Ty

/-- A field that has a place instead of a name. -/
structure Slot where
  attributes : List Attribute
  visibility : List Token
  ty : Ty

/-- The fields of a struct or of a variant. -/
inductive FieldList where
  | named (fields : List Field) (trailing : Bool)
  | positional (slots : List Slot) (trailing : Bool)
  | unit

/-- What a type declaration has before its body; `pos` is the place of its keyword. -/
structure TypeHead where
  attributes : List Attribute
  visibility : List Token
  pos : Position
  name : Name
  generics : Generics

/-- A struct. -/
structure Struct where
  head : TypeHead
  fields : FieldList

/-- A variant of an enum. -/
structure Variant where
  attributes : List Attribute
  name : Name
  fields : FieldList
  discriminant : List Token

/-- An enum. -/
structure Enum where
  head : TypeHead
  variants : List Variant
  trailing : Bool

/-- A union. -/
structure Union where
  head : TypeHead
  fields : List Field
  trailing : Bool

/-- A member of an impl; a function also tells the types of its typed parameters. -/
structure Member where
  tokens : List Token
  params : Option (List Ty)

/-- The trait that an impl implements, or refuses to. -/
structure ImplTrait where
  negative : Bool
  path : Path

/-- An impl; `head` holds what stands before the trait. -/
structure Impl where
  attributes : List Attribute
  head : List Token
  trait : Option ImplTrait
  target : Ty
  whereTokens : List Token
  members : List Member

/-- The kinds of declaration that are kept as tokens. -/
inductive ItemKind where
  | function
  | trait
  | typeAlias
  | constant
  | use
  | invocation
  | other
  deriving DecidableEq, Repr

mutual

/-- A declaration. -/
inductive Item where
  | struct (decl : Struct)
  | enum (decl : Enum)
  | union (decl : Union)
  | impl (decl : Impl)
  | mod (decl : Module)
  | other (kind : ItemKind) (tokens : List Token)

/-- A module; without a body its content lies elsewhere. `head` holds visibility and keywords. -/
structure Module where
  attributes : List Attribute
  head : List Token
  name : Name
  body : Option (List Item)

end

instance : Inhabited Item := ⟨.other .other []⟩

namespace Field

/-- The tokens of a field. -/
def tokens (field : Field) : List Token :=
  Attribute.tokensOf false field.attributes ++ field.visibility ++ [field.name.token] ++
    Token.symbol ":" ++ field.ty.tokens

/-- Where a field starts. -/
def pos (field : Field) : Position := Token.startOf field.tokens

end Field

namespace Slot

/-- The tokens of a positional field. -/
def tokens (slot : Slot) : List Token :=
  Attribute.tokensOf false slot.attributes ++ slot.visibility ++ slot.ty.tokens

end Slot

/-- The tokens of a list with commas. -/
def commaSeparated (trailing : Bool) (items : List (List Token)) : List Token :=
  separate (Token.symbol ",") trailing items

namespace FieldList

/-- The tokens of the fields with their brackets. -/
def tokens : FieldList → List Token
  | named fields trailing => [Token.braces (commaSeparated trailing (fields.map Field.tokens))]
  | positional slots trailing => [Token.parens (commaSeparated trailing (slots.map Slot.tokens))]
  | unit => []

end FieldList

namespace TypeHead

/-- The tokens before the body, the where clause apart. -/
def tokens (head : TypeHead) (keyword : String) : List Token :=
  Attribute.tokensOf false head.attributes ++ head.visibility ++
    [Token.wordAt head.pos keyword, head.name.token] ++ head.generics.declared

end TypeHead

namespace Struct

/-- The tokens of a struct; the where clause follows positional fields. -/
def tokens (decl : Struct) : List Token :=
  decl.head.tokens "struct" ++ (match decl.fields with
    | .named fields trailing =>
      decl.head.generics.whereTokens ++ (FieldList.named fields trailing).tokens
    -- Behind positional fields the clause stands after them, and a semicolon ends the struct.
    | .positional slots trailing =>
      (FieldList.positional slots trailing).tokens ++ decl.head.generics.whereTokens ++
        Token.symbol ";"
    | .unit => decl.head.generics.whereTokens ++ Token.symbol ";")

end Struct

namespace Variant

/-- The tokens of a variant. -/
def tokens (variant : Variant) : List Token :=
  Attribute.tokensOf false variant.attributes ++ [variant.name.token] ++ variant.fields.tokens ++
    variant.discriminant

end Variant

namespace Enum

/-- The tokens of an enum. -/
def tokens (decl : Enum) : List Token :=
  decl.head.tokens "enum" ++ decl.head.generics.whereTokens ++
    [Token.braces (commaSeparated decl.trailing (decl.variants.map Variant.tokens))]

end Enum

namespace Union

/-- The tokens of a union. -/
def tokens (decl : Union) : List Token :=
  decl.head.tokens "union" ++ decl.head.generics.whereTokens ++
    (FieldList.named decl.fields decl.trailing).tokens

end Union

namespace Impl

/-- The tokens of the trait and the word that joins it to its target. -/
def traitTokens (decl : Impl) : List Token :=
  match decl.trait with
  | none => []
  | some ⟨negative, path⟩ =>
    (if negative then Token.symbol "!" else []) ++ path.tokens ++ [Token.word "for"]

/-- The tokens of an impl. -/
def tokens (decl : Impl) : List Token :=
  Attribute.tokensOf false decl.attributes ++ decl.head ++ decl.traitTokens ++
    decl.target.tokens ++ decl.whereTokens ++
    [Token.braces (Attribute.tokensOf true decl.attributes ++ decl.members.flatMap Member.tokens)]

end Impl

mutual

/-- The tokens of a declaration. -/
def Item.tokens : Item → List Token
  | .struct decl => decl.tokens
  | .enum decl => decl.tokens
  | .union decl => decl.tokens
  | .impl decl => decl.tokens
  | .mod decl => decl.tokens
  | .other _ tokens => tokens

/-- The tokens of a module. -/
def Module.tokens : Module → List Token
  | ⟨attributes, head, name, body⟩ =>
    Attribute.tokensOf false attributes ++ head ++ [name.token] ++ (match body with
      | some items => [Token.braces (Attribute.tokensOf true attributes ++ itemsTokens items)]
      | none => Token.symbol ";")

/-- The tokens of declarations in a row. -/
def itemsTokens : List Item → List Token
  | [] => []
  | item :: rest => item.tokens ++ itemsTokens rest

end

namespace Item

/-- Where a declaration starts. -/
def pos (item : Item) : Position := Token.startOf item.tokens

/-- The written form of a declaration. -/
def display (item : Item) : String := Token.renderAll item.tokens

end Item

end KeyedCoding
