import KeyedCoding.Json.Basic

/-! Values that fields hold, and the JSON values that they are written as. -/

namespace KeyedCoding

/-- A value of a field. A map may have keys of any kind, and a value may be JSON itself. -/
inductive Datum where
  | unit
  | bool (value : Bool)
  | int (value : Int)
  | float (value : Float)
  | char (value : Char)
  | text (value : String)
  | absent
  | present (value : Datum)
  | list (items : List Datum)
  | map (entries : List (Datum × Datum))
  | json (value : Json)
  deriving Inhabited

/-- Why a value has no JSON form. -/
inductive WriteFault where
  | numberTooLarge
  | keyNotText
  deriving DecidableEq, Repr

namespace WriteFault

/-- The words for a fault. -/
def message : WriteFault → String
  | numberTooLarge => "number out of range"
  | keyNotText => "key must be a string"

end WriteFault

namespace Datum

/-- Whether a whole number fits into 64 bits, with or without a sign. -/
def fitsNumber (value : Int) : Bool := -0x8000000000000000 ≤ value && value ≤ 0xffffffffffffffff

/-- The text that a key of a map is written as. -/
def keyText? : Datum → Option String
  | bool value => some (toString value)
  | int value => some (toString value)
  | char value => some (String.singleton value)
  | text value => some value
  | _ => none

mutual

/-- The JSON form of a value. What is not finite is null, like what is absent. -/
def toJson : Datum → Except WriteFault Json
  | unit => .ok .null
  | bool value => .ok (.bool value)
  -- A number of the serializer has 64 bits at most, with or without a sign.
  | int value => if fitsNumber value then .ok (.int value) else .error .numberTooLarge
  -- What is not finite has no spelling as a number.
  | float value => .ok (if value.isFinite then .float value else .null)
  | char value => .ok (.string (String.singleton value))
  | text value => .ok (.string value)
  | absent => .ok .null
  | present value => toJson value
  | list items => do return .array (← toJsonItems items)
  | map entries => do return .ofPairs (← toJsonEntries entries)
  | json value => .ok value

/-- The JSON forms of items. -/
def toJsonItems : List Datum → Except WriteFault (List Json)
  | [] => .ok []
  | item :: rest => do
    let value ← toJson item
    return value :: (← toJsonItems rest)

/-- The JSON forms of entries, each under the text of its key. -/
def toJsonEntries : List (Datum × Datum) → Except WriteFault (List (String × Json))
  | [] => .ok []
  | (key, item) :: rest => do
    let some name := keyText? key | .error .keyNotText
    let value ← toJson item
    return (name, value) :: (← toJsonEntries rest)

end

/-- An optional value as a value. -/
def ofOption : Option Datum → Datum
  | some value => present value
  | none => absent

/-- The value that an optional value holds. -/
def toOption : Datum → Option Datum
  | absent => none
  | present value => some value
  | other => some other

end Datum

end KeyedCoding
