import KeyedCoding.Config.Context

/-! Transformers: named rewritings of an annotated declaration, or of the input of an expression. -/

namespace KeyedCoding

/-- The declarations that replace an annotated one, and the findings on the way. -/
structure Expansion where
  items : List Item
  diagnostics : List Diagnostic := []

namespace Expansion

/-- Whether a finding fails the expansion. -/
def hasErrors (expansion : Expansion) : Bool := expansion.diagnostics.any Diagnostic.isError

end Expansion

/-- A rewriting of an annotated declaration; it is given the arguments of the annotation. -/
structure Transformer where
  name : String
  description : String
  expand : List Token → Item → Context → Synthesis Expansion

/-- A rewriting of tokens to an expression. -/
structure ExpressionTransformer where
  name : String
  description : String
  expand : List Token → Context → Synthesis Expr

namespace Reader

/-- Goes on with the result of a reading that has been done apart. -/
def ofReading {α : Type} (result : Except Fault α) : Reader α :=
  match result with
  | .ok value => return value
  | .error fault => throw fault

/-- Reads the equals sign of an argument and a path in a string literal. -/
def quotedPath : Reader Path := do ofReading (Path.ofLiteral (← Grammar.argumentText))

end Reader

end KeyedCoding
