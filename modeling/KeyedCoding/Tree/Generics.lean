import KeyedCoding.Tree.Type

/-! Generic parameters and where clauses, as declared, as an impl repeats them, and as a type is applied to them. -/

namespace KeyedCoding

/-- What a generic parameter stands for. -/
inductive ParamKind where
  | lifetime
  | type
  | const
  deriving DecidableEq, Repr

/-- A generic parameter; bound and default are kept with the operators before them. -/
structure GenericParam where
  attributes : List Token
  kind : ParamKind
  name : Name
  bound : List Token
  default : List Token

/-- The predicates of a where clause. -/
structure WhereClause where
  predicates : List (List Token)
  trailing : Bool

/-- Generic parameters and the where clause that belongs to them. -/
structure Generics where
  params : List GenericParam
  trailing : Bool
  whereClause : Option WhereClause

namespace GenericParam

/-- The token of the parameter's name. -/
def nameToken (param : GenericParam) : Token :=
  match param.kind with
  | .lifetime => .lifetime param.name.spelling param.name.pos
  | _ => param.name.token

/-- The parameter without its default. -/
def bounded (param : GenericParam) : List Token :=
  param.attributes ++ (if param.kind = .const then [Token.word "const"] else []) ++
    [param.nameToken] ++ param.bound

/-- The parameter as declared. -/
def declared (param : GenericParam) : List Token := param.bounded ++ param.default

end GenericParam

namespace WhereClause

/-- The tokens of a where clause; an empty one is not written. -/
def tokens (clause : WhereClause) : List Token :=
  if clause.predicates.isEmpty then []
  else Token.word "where" :: separate (Token.symbol ",") clause.trailing clause.predicates

end WhereClause

namespace Generics

/-- No parameters and no where clause. -/
def empty : Generics := ⟨[], false, none⟩

/-- The parameters in angle brackets, each written by `write`; nothing without parameters. -/
def angled (generics : Generics) (write : GenericParam → List Token) : List Token :=
  if generics.params.isEmpty then []
  else Token.symbol "<" ++
    lifetimesFirst (generics.params.map fun param => (param.kind == .lifetime, write param))
      generics.trailing ++ Token.symbol ">"

/-- The parameters as declared. -/
def declared (generics : Generics) : List Token := generics.angled GenericParam.declared

/-- The parameters as an impl repeats them: without defaults. -/
def forImpl (generics : Generics) : List Token := generics.angled GenericParam.bounded

/-- The tokens of the where clause. -/
def whereTokens (generics : Generics) : List Token :=
  (generics.whereClause.map WhereClause.tokens).getD []

/-- A parameter as an argument of its own type. -/
def argument (param : GenericParam) : GenericArg :=
  match param.kind with
  | .lifetime => .lifetime param.name.spelling
  | _ => .type (.path (.ofName param.name))

/-- The arguments that apply a type to its own parameters. -/
def arguments (generics : Generics) : Arguments :=
  if generics.params.isEmpty then .none
  else .angle false (generics.params.map argument) generics.trailing

/-- The names of the type parameters. -/
def typeParams (generics : Generics) : List Name :=
  (generics.params.filter (·.kind == .type)).map (·.name)

/-- The predicates of the where clause. -/
def predicates (generics : Generics) : List (List Token) :=
  (generics.whereClause.map (·.predicates)).getD []

/-- The generics with further predicates; without any the clause stays as it is. -/
def addPredicates (generics : Generics) (added : List (List Token)) : Generics :=
  if added.isEmpty then generics
  else { generics with whereClause := some ⟨generics.predicates ++ added, false⟩ }

end Generics

end KeyedCoding
