import KeyedCoding.Tree.Type

/-! Attributes: a path that stands alone, holds a list, or has a value. -/

namespace KeyedCoding

/-- What follows the path of an attribute. -/
inductive MetaContent where
  | none
  | list (delim : Delimiter) (body : List Token) (opened closed : Position)
  | value (pos : Position) (value : Snippet)

/-- The inside of an attribute. -/
structure Meta where
  path : Path
  content : MetaContent

/-- An attribute; an owner attribute documents what it stands in. -/
structure Attribute where
  pos : Position
  owner : Bool
  inside : Meta

namespace MetaContent

/-- The tokens after the path. -/
def tokens : MetaContent → List Token
  | none => []
  | list delim body opened closed => [.group delim body opened closed]
  | value pos written => Token.symbolAt pos "=" ++ written.tokens

end MetaContent

namespace Meta

/-- The tokens between the brackets of an attribute. -/
def tokens (inside : Meta) : List Token := inside.path.tokens ++ inside.content.tokens

end Meta

namespace Attribute

/-- The tokens of an attribute. -/
def tokens (attr : Attribute) : List Token :=
  Token.symbolAt attr.pos "#" ++ (if attr.owner then Token.symbol "!" else []) ++
    [Token.brackets attr.inside.tokens]

/-- The path of an attribute. -/
def path (attr : Attribute) : Path := attr.inside.path

/-- An attribute with a parenthesized list that no source wrote. -/
def withList (path : Path) (body : List Token) : Attribute :=
  ⟨.origin, false, ⟨path, .list .paren body .origin .origin⟩⟩

/-- The tokens of those attributes of a list that stand before their owner, or inside it. -/
def tokensOf (inside : Bool) (attributes : List Attribute) : List Token :=
  (attributes.filter (·.owner == inside)).flatMap tokens

/-- The first attribute whose path ends in a name. -/
def find? (attributes : List Attribute) (name : String) : Option Attribute :=
  attributes.find? fun attr => attr.path.lastName? == some name

/-- The attributes without those whose path is one of the given single names. -/
def strip (names : List String) (attributes : List Attribute) : List Attribute :=
  attributes.filter fun attr => !names.any attr.path.isName

end Attribute

end KeyedCoding
