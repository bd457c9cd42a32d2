import KeyedCoding.Coding.Datum

/-!
Encoding: values are written under keys of an object, and a write that fails changes nothing. Keys
are texts, or belong to the type of a container that is open on the object.
-/

namespace KeyedCoding

/-- Why a value cannot be encoded: the value under a key has no JSON form. -/
structure EncodingError where
  key : String
  fault : WriteFault
  deriving DecidableEq, Repr

namespace EncodingError

/-- The report of an error. -/
def message (error : EncodingError) : String :=
  "value for key `" ++ error.key ++ "` could not be encoded: " ++ error.fault.message

end EncodingError

/-- A value to be written under a key, or an optional one to be written if it is present. -/
inductive KeyedWrite where
  | always (key : String) (value : Datum)
  | ifPresent (key : String) (value : Option Datum)

/-- An object that is being written, with its entries in the order of their keys. -/
structure Encoder where
  entries : Json.Entries := []

namespace Encoder

/-- Writes a value under a key, in place of an earlier one. -/
def encode (encoder : Encoder) (key : String) (value : Datum) : Except EncodingError Encoder :=
  match value.toJson with
  | .ok written => .ok ⟨encoder.entries.insert key written⟩
  | .error fault => .error ⟨key, fault⟩

/-- Writes an optional value if it is present; an absent one leaves the object as it is. -/
def encodeIfPresent (encoder : Encoder) (key : String) :
    Option Datum → Except EncodingError Encoder
  | some value => encoder.encode key value
  | none => .ok encoder

/-- Carries out a write. -/
def write (encoder : Encoder) : KeyedWrite → Except EncodingError Encoder
  | .always key value => encoder.encode key value
  | .ifPresent key value => encoder.encodeIfPresent key value

/-- Carries out writes until one fails. -/
def writeAll (encoder : Encoder) (writes : List KeyedWrite) : Except EncodingError Encoder :=
  writes.foldlM write encoder

/-- Tries a write: its error, if any, and the object afterwards, unchanged by a failure. -/
def attempt (encoder : Encoder) (request : KeyedWrite) : Option EncodingError × Encoder :=
  match encoder.write request with
  | .ok after => (none, after)
  | .error error => (some error, encoder)

/-- Tries one write after another, whichever of them fail. -/
def attemptAll (encoder : Encoder) (writes : List KeyedWrite) : Encoder :=
  writes.foldl (fun encoder request => (encoder.attempt request).2) encoder

/-- The written object. -/
def toJson (encoder : Encoder) : Json := .object encoder.entries

end Encoder

/-- A call that writes a value under a key of some type, or an optional one if it is present. -/
inductive KeyedCall (κ : Type) where
  | encode (key : κ) (value : Datum)
  | encodeIfPresent (key : κ) (value : Option Datum)

/-- A container on an object: the texts that its keys stand for, and the calls made through it. -/
structure KeyedContainer where
  Key : Type
  text : Key → String
  calls : List (KeyedCall Key)

namespace KeyedContainer

/-- The write that a call is. -/
def write (container : KeyedContainer) : KeyedCall container.Key → KeyedWrite
  | .encode key value => .always (container.text key) value
  | .encodeIfPresent key value => .ifPresent (container.text key) value

/-- The writes that are made through a container. -/
def writes (container : KeyedContainer) : List KeyedWrite := container.calls.map container.write

end KeyedContainer

namespace Encoder

/-- Makes the calls of a container one after the other, whichever of them fail. -/
def fill (encoder : Encoder) (container : KeyedContainer) : Encoder :=
  container.calls.foldl (fun encoder call => (encoder.attempt (container.write call)).2) encoder

/-- Opens containers one after the other, and makes the calls of each. -/
def fillAll (encoder : Encoder) (containers : List KeyedContainer) : Encoder :=
  containers.foldl fill encoder

end Encoder

end KeyedCoding
