import KeyedCoding.Text.CharTable

/-! Character classes of declaration sources and of escaped text. -/

namespace KeyedCoding.Text

/-- Whether a code point lies in one of the ranges of a table. -/
def inRanges (table : Array (Nat × Nat)) (c : Char) : Bool :=
  -- The tables hold closed ranges of code points.
  table.any fun range => range.1 ≤ c.toNat && c.toNat ≤ range.2

/-- Whether a character may start a name. -/
def isNameStart (c : Char) : Bool :=
  -- ASCII is decided without the table.
  if c.toNat < 0x80 then c.isAlpha || c == '_' else inRanges nameStartRanges c

/-- Whether a character may continue a name. -/
def isNameContinue (c : Char) : Bool :=
  -- Digits may continue a name but not start one.
  if c.toNat < 0x80 then c.isAlphanum || c == '_' else inRanges nameContinueRanges c

/-- Whether a character has a visible form of its own. -/
def isPrintable (c : Char) : Bool :=
  -- The ASCII controls lie below the space and at 0x7f.
  if c.toNat < 0x80 then 0x20 ≤ c.toNat && c.toNat < 0x7f else !inRanges unprintableRanges c

/-- Whether a character attaches to the character before it. -/
def isGraphemeExtend (c : Char) : Bool :=
  -- No ASCII character does.
  0x80 ≤ c.toNat && inRanges graphemeExtendRanges c

/-- Whether a character is white space: the Unicode property, as sources and numbers use it. -/
def isBlank (c : Char) : Bool :=
  let n := c.toNat
  (0x09 ≤ n && n ≤ 0x0d) || n == 0x20 || n == 0x85 || n == 0xa0 || n == 0x1680 ||
    (0x2000 ≤ n && n ≤ 0x200a) || n == 0x2028 || n == 0x2029 || n == 0x202f || n == 0x205f ||
    n == 0x3000

/-- Whether a character separates tokens: white space or one of the two direction marks. -/
def isSeparator (c : Char) : Bool :=
  isBlank c || c.toNat == 0x200e || c.toNat == 0x200f

/-- The value of a hexadecimal digit. -/
def hexValue? (c : Char) : Option Nat :=
  if '0' ≤ c ∧ c ≤ '9' then some (c.toNat - '0'.toNat)
  else if 'a' ≤ c ∧ c ≤ 'f' then some (c.toNat - 'a'.toNat + 10)
  else if 'A' ≤ c ∧ c ≤ 'F' then some (c.toNat - 'A'.toNat + 10)
  else none

/-- Lower-case hexadecimal digits of a number, without leading zeros. -/
def hexDigits (n : Nat) : List Char := Nat.toDigits 16 n

end KeyedCoding.Text
