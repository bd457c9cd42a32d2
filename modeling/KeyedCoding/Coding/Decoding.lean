import KeyedCoding.Coding.Schema
import KeyedCoding.Json.Reader

/-! Decoding: the values of an object are read through the keys of a type. -/

namespace KeyedCoding

/-- Why data cannot be decoded. -/
inductive DecodingError where
  | keyNotFound (key : String)
  | typeMismatch (key : String) (misfit : Misfit)
  | notAnObject (found : Json)
  | malformed (fault : Json.ReadFault)

namespace DecodingError

/-- The key that an error is about. -/
def key? : DecodingError → Option String
  | keyNotFound key => some key
  | typeMismatch key _ => some key
  | notAnObject _ => none
  | malformed _ => none

/-- The report of an error. -/
def message : DecodingError → String
  | keyNotFound key => "key `" ++ key ++ "` not found"
  | typeMismatch key misfit => "value for key `" ++ key ++ "` has the wrong type: " ++ misfit.message
  | notAnObject found => "data corrupted: expected an object, found " ++ found.kindName
  | malformed fault => "invalid JSON: " ++ fault.message

end DecodingError

/-- An object that is read through keys. -/
structure KeyedObject where
  keys : List String
  entries : Json.Entries

namespace KeyedObject

variable {α : Type}

/-- Opens a value as an object with the given keys. -/
def ofJson (keys : List String) (value : Json) : Except DecodingError KeyedObject :=
  match value with
  | .object entries => .ok ⟨keys, entries⟩
  | _ => .error (.notAnObject value)

/-- Whether a key is present, even with null. -/
def contains (object : KeyedObject) (key : String) : Bool := (object.entries.get? key).isSome

/-- The keys that are present, in their order. -/
def presentKeys (object : KeyedObject) : List String := object.keys.filter object.contains

/-- Reads a required value. -/
def decode (object : KeyedObject) (read : Json → Except Misfit α) (key : String) :
    Except DecodingError α :=
  match object.entries.get? key with
  | none => .error (.keyNotFound key)
  | some value => (read value).mapError (.typeMismatch key)

/-- Reads an optional value: there is none if the key is absent or has null. -/
def decodeIfPresent (object : KeyedObject) (read : Json → Except Misfit α) (key : String) :
    Except DecodingError (Option α) :=
  match object.entries.get? key with
  | none => .ok none
  | some .null => .ok none
  | some value => ((read value).map some).mapError (.typeMismatch key)

end KeyedObject

/-- Decodes a text: it has to be JSON first. -/
def decodeText {α : Type} (decode : Json → Except DecodingError α) (text : String) :
    Except DecodingError α := do
  decode (← (Json.ofText text).mapError .malformed)

end KeyedCoding
