import KeyedCoding.Coding.Datum
import KeyedCoding.Json.Printer
import KeyedCoding.Text.Quoted

/-! Types of values as schemas, and how JSON values are read by them. -/

namespace KeyedCoding

/-- Whole numbers of a width in bits, with or without a sign. -/
structure IntegerType where
  signed : Bool
  bits : Nat
  deriving DecidableEq, Repr

namespace IntegerType

/-- The name of the type. -/
def name (type : IntegerType) : String := (if type.signed then "i" else "u") ++ toString type.bits

/-- Whether a number is of the type. -/
def holds (type : IntegerType) (value : Int) : Bool :=
  if type.signed then
    -(Nat.pow 2 (type.bits - 1) : Int) ≤ value && value < Nat.pow 2 (type.bits - 1)
  else 0 ≤ value && value < Nat.pow 2 type.bits

/-- All types of whole numbers up to 64 bits. -/
def all : List IntegerType :=
  [true, false].flatMap fun signed => [8, 16, 32, 64].map fun bits => ⟨signed, bits⟩

/-- The type with a name. -/
def ofName? (name : String) : Option IntegerType := all.find? fun type => type.name == name

end IntegerType

/-- A type of values. -/
inductive Schema where
  | text
  | bool
  | int (type : IntegerType)
  | float
  | char
  | unit
  | option (inner : Schema)
  | list (item : Schema)
  | map (value : Schema)
  | pair (first second : Schema)
  | array (size : Nat) (item : Schema)
  | json
  deriving Inhabited

/-- Why a JSON value is not of a type. -/
inductive Misfit where
  | wrongKind (found : Json) (expected : Schema)
  | wrongValue (found : Json) (expected : Schema)
  | tooShort (size : Nat) (expected : Schema)
  | tooLong (size : Nat)

namespace Schema

/-- What a type expects, in words. -/
def expectation : Schema → String
  | text => "a string"
  | bool => "a boolean"
  | int type => type.name
  | float => "f64"
  | char => "a character"
  | unit => "unit"
  | option _ => "option"
  | list _ => "a sequence"
  | map _ => "a map"
  | pair _ _ => "a tuple of size 2"
  | array size _ => "an array of length " ++ toString size
  | json => "any valid JSON value"

/-- Reads a whole number. -/
def readInt (type : IntegerType) (value : Int) : Except Misfit Datum :=
  if type.holds value then .ok (.int value) else .error (.wrongValue (.int value) (.int type))

/-- Reads a text of one character. -/
def readChar (value : String) : Except Misfit Datum :=
  match value.toList with
  | [c] => .ok (.char c)
  | _ => .error (.wrongValue (.string value) .char)

/-- Reads two items; faults of items come before a wrong number of them. -/
def readPair (expected : Schema) (first second : Json → Except Misfit Datum) (items : List Json) :
    Except Misfit Datum :=
  match items with
  | [] => .error (.tooShort 0 expected)
  -- The fault of an item that is there comes first, and then that of the one that is missing.
  | [a] => do
    let _ ← first a
    .error (.tooShort 1 expected)
  | a :: b :: rest => do
    let a ← first a
    let b ← second b
    -- Both items are read before those that are too many are noticed.
    if rest.isEmpty then .ok (.list [a, b]) else .error (.tooLong (rest.length + 2))

/-- Reads a given number of items; faults of items come before a wrong number of them. -/
def readArray (expected : Schema) (size : Nat) (item : Json → Except Misfit Datum)
    (items : List Json) : Except Misfit Datum := do
  let found ← (items.take size).mapM item
  if items.length < size then .error (.tooShort items.length expected)
  else if size < items.length then .error (.tooLong items.length)
  else .ok (.list found)

/-- Reads the values of an object. -/
def readMap (value : Json → Except Misfit Datum) (entries : Json.Entries) : Except Misfit Datum := do
  let found ← entries.mapM fun entry => do return (Datum.text entry.1, ← value entry.2)
  return .map found

/-- Reads a JSON value as a value of a type; the first fault is reported. -/
def read (schema : Schema) (found : Json) : Except Misfit Datum :=
  match schema, found with
  | text, .string value => .ok (.text value)
  | bool, .bool value => .ok (.bool value)
  | int type, .int value => readInt type value
  | float, .float value => .ok (.float value)
  -- A whole number is a floating-point number as well, but not the other way round.
  | float, .int value => .ok (.float (.ofInt value))
  | char, .string value => readChar value
  | unit, .null => .ok .unit
  -- Null is the absent value, so an option inside an option is lost.
  | option _, .null => .ok .absent
  | option inner, _ => do return .present (← inner.read found)
  | list item, .array items => do return .list (← items.mapM item.read)
  | map value, .object entries => readMap value.read entries
  | pair first second, .array items => readPair schema first.read second.read items
  | array size item, .array items => readArray schema size item.read items
  | json, _ => .ok (.json found)
  | _, _ => .error (.wrongKind found schema)

end Schema

namespace Misfit

/-- A JSON value, in words: its kind, and the value if that is a single one. -/
def foundText : Json → String
  | .null => "null"
  | .bool value => "boolean `" ++ toString value ++ "`"
  | .int value => "integer `" ++ toString value ++ "`"
  | .float value => "floating point `" ++ Json.floatText value ++ "`"
  | .string value => "string " ++ Text.Quoted.displayed value
  | .array _ => "sequence"
  | .object _ => "map"

/-- The words for a misfit. -/
def message : Misfit → String
  | wrongKind found expected =>
    "invalid type: " ++ foundText found ++ ", expected " ++ expected.expectation
  | wrongValue found expected =>
    "invalid value: " ++ foundText found ++ ", expected " ++ expected.expectation
  | tooShort size expected =>
    "invalid length " ++ toString size ++ ", expected " ++ expected.expectation
  | tooLong size => "invalid length " ++ toString size ++ ", expected fewer elements in array"

end Misfit

end KeyedCoding
