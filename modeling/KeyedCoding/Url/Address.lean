import KeyedCoding.Text.CharClass
import KeyedCoding.Url.Basic

/-! Network addresses in URLs: which hosts are numbers, and whether the numbers fit. -/

namespace KeyedCoding.Url

/-- Splits characters at each separator. -/
def splitAt (separator : Char) : List Char → List (List Char)
  | [] => [[]]
  | c :: rest =>
    if c = separator then [] :: splitAt separator rest
    else match splitAt separator rest with
      | part :: more => (c :: part) :: more
      | [] => [[c]]

namespace V4

/-- The digits of a part without the marker of its base, and the base. -/
def baseOf : List Char → Nat × List Char
  | '0' :: 'x' :: digits => (16, digits)
  | '0' :: 'X' :: digits => (16, digits)
  | '0' :: d :: digits => (8, d :: digits)
  | digits => (10, digits)

/-- The value of digits in a base. -/
def digitsValue? (base : Nat) (digits : List Char) : Option Nat :=
  digits.foldlM (fun value c => do
    let digit ← Text.hexValue? c
    if digit < base then some (value * base + digit) else none) 0

/-- The number of a part of an address. -/
def part? (part : List Char) : Option Nat :=
  if part.isEmpty then none
  else
    let (base, digits) := baseOf part
    digitsValue? base digits

/-- The parts of a host; an empty part at the end does not count. -/
def parts (host : List Char) : List (List Char) :=
  let found := splitAt '.' host
  if found.length > 1 ∧ found.getLast? = some [] then found.dropLast else found

/-- Whether a host is meant as an address: its last part is a number. -/
def isMeant (host : List Char) : Bool :=
  match (parts host).getLast? with
  | some last => (!last.isEmpty && last.all Char.isDigit) || (part? last).isSome
  | none => false

/-- Checks an address: the last part fills all bytes that the others leave. -/
def check (host : List Char) : Except Fault Unit :=
  let found := parts host
  match found.mapM part? with
  | none => .error .badV4
  | some numbers =>
    let front := numbers.dropLast
    if numbers.length ≤ 4 ∧ front.all (· ≤ 255) ∧
        -- The last number fills the bytes that are left, so it may be larger than a byte.
        (numbers.getLast?.getD 0) < Nat.pow 256 (4 - front.length) then .ok ()
    else .error .badV4

end V4

namespace V6

/-- How many pieces an address has. -/
def pieceCount : Nat := 8

/-- Whether a part of the four bytes at the end is a number without leading zeros. -/
def isByte (part : List Char) : Bool :=
  match part with
  | [] => false
  | ['0'] => true
  | '0' :: _ => false
  | digits => digits.length ≤ 3 && digits.all Char.isDigit &&
    ((V4.digitsValue? 10 digits).getD 256) ≤ 255

/-- Whether characters are four bytes with points between them. -/
def isTail (cs : List Char) : Bool :=
  let parts := splitAt '.' cs
  parts.length = 4 && parts.all isByte

/-- Whether characters may be a piece. -/
def isPiece (cs : List Char) : Bool :=
  !cs.isEmpty && cs.length ≤ 4 && cs.all fun c => (Text.hexValue? c).isSome

/-- The number of pieces that parts stand for; the last one may stand for four bytes. -/
def countPieces? : List (List Char) → Option Nat
  | [] => some 0
  | [last] => if isPiece last then some 1 else if isTail last then some 2 else none
  | part :: rest => if isPiece part then (countPieces? rest).map (· + 1) else none

/-- The parts before and after the first two colons in a row; all parts before, if there are none. -/
def splitGap : List Char → List Char × Option (List Char)
  | ':' :: ':' :: rest => ([], some rest)
  | c :: rest =>
    let (front, back) := splitGap rest
    (c :: front, back)
  | [] => ([], none)

/-- The number of pieces in characters without a gap. -/
def pieces? (cs : List Char) : Option Nat :=
  if cs.isEmpty then some 0 else countPieces? (splitAt ':' cs)

/-- The number of pieces before a gap, where no bytes may stand. -/
def frontPieces? (cs : List Char) : Option Nat :=
  if cs.isEmpty then some 0
  else
    let parts := splitAt ':' cs
    if parts.all isPiece then some parts.length else none

/-- Whether characters are an address: all pieces, or fewer around one gap. -/
def isAddress (cs : List Char) : Bool :=
  match splitGap cs with
  | (_, none) => pieces? cs == some pieceCount
  | (front, some back) =>
    match frontPieces? front, pieces? back with
    | some before, some after => before + after < pieceCount
    | _, _ => false

/-- Checks a host in brackets. -/
def check (host : List Char) : Except Fault Unit :=
  match host with
  | '[' :: rest =>
    if rest.getLast? = some ']' ∧ isAddress rest.dropLast then .ok () else .error .badV6
  | _ => .error .badV6

end V6

end KeyedCoding.Url
