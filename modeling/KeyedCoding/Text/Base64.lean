import KeyedCoding.Text.Utf8

/-! Base64: three bytes are four characters of the standard alphabet, and the end is padded. -/

namespace KeyedCoding.Text.Base64

/-- The standard alphabet. -/
def alphabet : List Char :=
  "ABCDEFGHIJKLMNOPQRSTUVWXYZabcdefghijklmnopqrstuvwxyz0123456789+/".toList

/-- The character of a number below 64. -/
def digit (value : Nat) : Char := alphabet[value]?.getD 'A'

/-- The number of a character. -/
def digitValue? (c : Char) : Option Nat :=
  if 'A' ≤ c ∧ c ≤ 'Z' then some (c.toNat - 'A'.toNat)
  else if 'a' ≤ c ∧ c ≤ 'z' then some (c.toNat - 'a'.toNat + 26)
  else if '0' ≤ c ∧ c ≤ '9' then some (c.toNat - '0'.toNat + 52)
  else if c = '+' then some 62
  else if c = '/' then some 63
  else none

/-- Writes bytes. -/
def encodeBytes : List UInt8 → List Char
  | [] => []
  | [a] => [digit (a.toNat / 4), digit (a.toNat % 4 * 16), '=', '=']
  | [a, b] =>
    [digit (a.toNat / 4), digit (a.toNat % 4 * 16 + b.toNat / 16), digit (b.toNat % 16 * 4), '=']
  | a :: b :: c :: rest =>
    digit (a.toNat / 4) :: digit (a.toNat % 4 * 16 + b.toNat / 16) ::
      digit (b.toNat % 16 * 4 + c.toNat / 64) :: digit (c.toNat % 64) :: encodeBytes rest

/-- Reads the last four characters if they are padded; unused bits must be zero. -/
def decodePadded? (a b c d : Char) : Option (List UInt8) := do
  if d ≠ '=' then none
  else
    let x ← digitValue? a
    let y ← digitValue? b
    if c = '=' then
      if y % 16 = 0 then some [(x * 4 + y / 16).toUInt8] else none
    else
      let z ← digitValue? c
      if z % 4 = 0 then some [(x * 4 + y / 16).toUInt8, (y % 16 * 16 + z / 4).toUInt8] else none

/-- Reads four characters that are not padded. -/
def decodeFull? (a b c d : Char) : Option (List UInt8) := do
  let x ← digitValue? a
  let y ← digitValue? b
  let z ← digitValue? c
  let w ← digitValue? d
  return [(x * 4 + y / 16).toUInt8, (y % 16 * 16 + z / 4).toUInt8, (z % 4 * 64 + w).toUInt8]

/-- Reads bytes; only what writing produces is accepted. -/
def decodeBytes? : List Char → Option (List UInt8)
  | [] => some []
  | [a, b, c, d] => decodeFull? a b c d <|> decodePadded? a b c d
  | a :: b :: c :: d :: rest => do return (← decodeFull? a b c d) ++ (← decodeBytes? rest)
  | _ => none

/-- Writes the bytes of a text. -/
def encode (text : String) : String := String.ofList (encodeBytes (Utf8.encode text))

/-- Reads a text; none if the bytes are not a text. -/
def decode? (encoded : String) : Option String :=
  (decodeBytes? encoded.toList).bind Utf8.decode?

end KeyedCoding.Text.Base64
