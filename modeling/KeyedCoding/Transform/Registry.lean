import KeyedCoding.Transform.Codable
import KeyedCoding.Transform.KeyType
import KeyedCoding.Transform.Literal
import KeyedCoding.Transform.SecureStorage

/-! The registry: transformers under their names, in the order of registration. -/

namespace KeyedCoding

/-- Registered transformers; of two with one name the first is found. -/
structure Registry where
  transformers : List Transformer
  expressions : List ExpressionTransformer

namespace Registry

/-- The transformers of declarations that come with the library. -/
def builtinTransformers : List Transformer :=
  [Codable.standard.transformer, Codable.ignoreInitialized.transformer, KeyType.transformer,
   SecureStorage.transformer]

/-- The transformers of expressions that come with the library. -/
def builtinExpressions : List ExpressionTransformer :=
  [Base64Encoded.transformer, CheckedUrl.transformer]

/-- The registry of everything that comes with the library. -/
def builtin : Registry := ⟨builtinTransformers, builtinExpressions⟩

/-- The registered names of transformers of declarations. -/
def names (registry : Registry) : List String := registry.transformers.map (·.name)

/-- The registered names of transformers of expressions. -/
def expressionNames (registry : Registry) : List String := registry.expressions.map (·.name)

/-- The transformer of declarations with a name. -/
def find? (registry : Registry) (name : String) : Option Transformer :=
  registry.transformers.find? (·.name == name)

/-- The transformer of expressions with a name. -/
def findExpression? (registry : Registry) (name : String) : Option ExpressionTransformer :=
  registry.expressions.find? (·.name == name)

/-- Expands a declaration with the transformer of a name. -/
def expand (registry : Registry) (name : String) (args : List Token) (item : Item)
    (context : Context) : Synthesis Expansion :=
  match registry.find? name with
  | some transformer => transformer.expand args item context
  | none => .error (.invalidAttribute (.unknownTransformer name) .origin)

/-- Expands an input to an expression with the transformer of a name. -/
def expandExpression (registry : Registry) (name : String) (input : List Token)
    (context : Context) : Synthesis Expr :=
  match registry.findExpression? name with
  | some transformer => transformer.expand input context
  | none => .error (.invalidAttribute (.unknownExpression name) .origin)

/-- Names as a value display lists them. -/
def displayNames (names : List String) : String :=
  "[" ++ String.intercalate ", " (names.map Text.Quoted.displayed) ++ "]"

/-- The registry as a value display shows it. -/
def display (registry : Registry) : String :=
  "Registry \x7b transformers: " ++ displayNames registry.names ++ ", expressions: " ++
    displayNames registry.expressionNames ++ " \x7d"

end Registry

end KeyedCoding
