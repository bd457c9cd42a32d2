import KeyedCoding.Coding.Schema
import KeyedCoding.Tree.Type

/-! The schemas that the written types of fields denote. -/

namespace KeyedCoding

namespace Schema

/-- The schema of a type without arguments. -/
def ofName? (name : String) : Option Schema :=
  match name with
  | "String" => some text
  | "bool" => some bool
  | "f64" => some float
  | "char" => some char
  | "Value" => some json
  | _ => (IntegerType.ofName? name).map int

/-- The number that an array length denotes. -/
def lengthOf? (length : Snippet) : Option Nat := (Token.renderAll length.tokens).toNat?

/-- The schema that a type denotes, where names of parameters stand for the given schemas. -/
def ofType? (parameters : List (String × Schema)) (ty : Ty) : Option Schema :=
  match ty with
  -- A parameter stands for its schema before any known type of that name.
  | .path ⟨none, [⟨name, .none⟩]⟩ => parameters.lookup name.spelling <|> ofName? name.spelling
  | .path ⟨none, [⟨⟨"Option", _⟩, .angle _ [.type inner] _⟩]⟩ => (ofType? parameters inner).map option
  | .path ⟨none, [⟨⟨"Vec", _⟩, .angle _ [.type item] _⟩]⟩ => (ofType? parameters item).map list
  | .path ⟨none, [⟨⟨"BTreeMap", _⟩, .angle _ [.type _, .type value] _⟩]⟩ =>
    (ofType? parameters value).map map
  -- Tuples of other sizes, and types of other shapes, have no schema here.
  | .tuple [] _ => some unit
  | .tuple [first, second] _ => do return pair (← ofType? parameters first) (← ofType? parameters second)
  | .array item length => do return array (← lengthOf? length) (← ofType? parameters item)
  | _ => none
termination_by sizeOf ty

end Schema

end KeyedCoding
