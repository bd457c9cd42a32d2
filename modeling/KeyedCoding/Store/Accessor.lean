import KeyedCoding.Generated.Accessor
import KeyedCoding.Store.Basic

/-! Accessors at work: a getter is one read of the field's key, a setter one write or one deletion. -/

namespace KeyedCoding

/-- How values of a type are written as texts and read back. -/
structure TextFormat (α : Type) where
  render : α → String
  parse? : String → Option α

namespace TextFormat

/-- Digits with a value below a bound, after an optional plus sign. -/
def readDigits (bound : Nat) (digits : List Char) : Option Nat :=
  if digits.isEmpty then none
  else digits.foldlM (fun value c =>
    if c.isDigit then
      let value := value * 10 + (c.toNat - '0'.toNat)
      if value < bound then some value else none
    else none) 0

/-- Counts below a bound in decimal; a plus sign and leading zeros are read, too. -/
def count (bound : Nat) : TextFormat Nat where
  render := Nat.repr
  parse? text := match text.toList with
    | '+' :: digits => readDigits bound digits
    | digits => readDigits bound digits

end TextFormat

namespace StoreGetter

/-- The values of a field, by how it is read; only parsed fields hold values of their own type. -/
abbrev Value (α : Type) : StoreGetter → Type
  | text => String
  | flag => Bool
  | data => List UInt8
  | parsed => α

/-- The request that reads a key. -/
def request (getter : StoreGetter) (key : String) : Store.Request :=
  match getter with
  | text => .getText key
  | flag => .getFlag key
  | data => .getData key
  | parsed => .getText key

/-- The value that an answer gives. -/
def value? {α : Type} (format : TextFormat α) :
    (getter : StoreGetter) → Store.Reply → Option (getter.Value α)
  | text, .text value => value
  | flag, .flag value => value
  | data, .data bytes => bytes
  | parsed, .text value => value.bind format.parse?
  | _, _ => none

/-- What is stored for a value. -/
def stored {α : Type} (format : TextFormat α) :
    (getter : StoreGetter) → getter.Value α → StoredValue
  | text, value => .text value
  | flag, value => .flag value
  | data, bytes => .data bytes
  | parsed, value => .text (format.render value)

end StoreGetter

/-- A getter and a setter for a key of a store. -/
structure Accessor (α : Type) where
  key : String
  getter : StoreGetter
  format : TextFormat α

namespace Accessor

variable {α : Type}

/-- The values that the getter gives and the setter takes. -/
abbrev Value (accessor : Accessor α) : Type := accessor.getter.Value α

/-- The request of the getter. -/
def read (accessor : Accessor α) : Store.Request := accessor.getter.request accessor.key

/-- The request of the setter: a missing value deletes. -/
def write (accessor : Accessor α) : Option accessor.Value → Store.Request
  | some value => .set accessor.key (accessor.getter.stored accessor.format value)
  | none => .delete accessor.key

/-- The value of the field in a store. -/
def get (accessor : Accessor α) (store : Store) : Option accessor.Value :=
  accessor.getter.value? accessor.format (store.reply accessor.read)

/-- The store after setting the field. -/
def set (accessor : Accessor α) (store : Store) (value : Option accessor.Value) : Store :=
  store.after (accessor.write value)

end Accessor

namespace SecureField

/-- The accessor that the generated members of a field are. -/
def accessor {α : Type} (field : SecureField) (format : TextFormat α) : Accessor α :=
  ⟨field.key.textValue, StoreGetter.ofType field.ty, format⟩

end SecureField

end KeyedCoding
