import KeyedCoding.Coding.FieldType
import KeyedCoding.Coding.Synthesized

/-! The meaning of fields whose types are schemas and whose defaults are numbers. -/

namespace KeyedCoding

namespace Schema

/-- The value that a type has where none is given. -/
def standard : Schema → Datum
  | text => .text ""
  | bool => .bool false
  | int _ => .int 0
  | float => .float 0
  | char => .char '\x00'
  | unit => .unit
  | option _ => .absent
  | list _ => .list []
  | map _ => .map []
  | pair first second => .list [first.standard, second.standard]
  | array size item => .list (List.replicate size item.standard)
  | json => .json .null

end Schema

namespace Meaning

/-- The value of a default that is a whole number. -/
def number (expr : Expr) : Datum := .int ((Token.renderAll expr.tokens).toInt?.getD 0)

/-- The meaning of fields by the schemas of their types; a type without a schema has no values. -/
def ofFields (parameters : List (String × Schema)) (fields : List FieldInfo) : Meaning where
  -- A type without a schema refuses whatever is there.
  read ty found := match Schema.ofType? parameters ty with
    | some schema => schema.read found
    | none => .error (.wrongKind found .json)
  evaluate _ expr := number expr
  standard name :=
    (((fields.find? (·.name == name)).bind (Schema.ofType? parameters ·.ty)).map
      Schema.standard).getD .unit

end Meaning

end KeyedCoding
