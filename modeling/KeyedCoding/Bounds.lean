import KeyedCoding.Tree.Generics

/-! Bounds that generated impls put on the type parameters that the coded fields use. -/

namespace KeyedCoding

namespace Generics

/-- The type parameters that stand first in a type path of one of the types, as declared. -/
def usedTypeParams (generics : Generics) (types : List Ty) : List Name :=
  let heads := types.flatMap Ty.heads
  generics.typeParams.filter fun param => heads.contains param.spelling

/-- The predicate that bounds a parameter by a trait. -/
def boundPredicate (bound : Path) (param : Name) : List Token :=
  param.token :: Token.symbol ":" ++ bound.tokens

/-- The predicates that bound every used type parameter by a trait. -/
def fieldPredicates (generics : Generics) (types : List Ty) (bound : Path) : List (List Token) :=
  (generics.usedTypeParams types).map (boundPredicate bound)

/-- The generics with every used type parameter bounded by a trait. -/
def withFieldBounds (generics : Generics) (types : List Ty) (bound : Path) : Generics :=
  generics.addPredicates (generics.fieldPredicates types bound)

end Generics

end KeyedCoding
