/-! The shortest decimal text of a binary fraction: the fewest digits that read back, the nearest of those. -/

namespace KeyedCoding.Text

/-- A positive fraction of whole numbers. -/
structure Fraction where
  num : Nat
  den : Nat

namespace Fraction

/-- The fraction `n * 2 ^ exponent`. -/
def scaled (n : Nat) (exponent : Int) : Fraction :=
  if 0 ≤ exponent then ⟨n * Nat.pow 2 exponent.toNat, 1⟩ else ⟨n, Nat.pow 2 (-exponent).toNat⟩

/-- The fraction divided by a power of ten. -/
def shiftDecimal (x : Fraction) (exponent : Int) : Fraction :=
  if 0 ≤ exponent then ⟨x.num, x.den * Nat.pow 10 exponent.toNat⟩
  else ⟨x.num * Nat.pow 10 (-exponent).toNat, x.den⟩

/-- The whole part. -/
def floor (x : Fraction) : Nat := x.num / x.den

/-- Whether a whole number lies at or below a fraction. -/
def atLeast (x : Fraction) (n : Nat) : Bool := n * x.den ≤ x.num

/-- Whether a whole number lies below a fraction. -/
def exceeds (x : Fraction) (n : Nat) : Bool := n * x.den < x.num

/-- The power of ten of the first decimal digit. -/
def decimalExponent (x : Fraction) : Int :=
  -- The binary logarithms give an estimate that is at most one too low or too high.
  let estimate := (((x.num.log2 : Int) - (x.den.log2 : Int)) * 1233) / 4096
  let up := (x.shiftDecimal (estimate + 1)).atLeast 1
  let holds := (x.shiftDecimal estimate).atLeast 1
  if up then estimate + 1 else if holds then estimate else estimate - 1

end Fraction

/-- The numbers that round to a binary fraction: `low` and `high` bound them. -/
structure Rounding where
  value : Fraction
  low : Fraction
  high : Fraction
  closed : Bool

namespace Rounding

/-- Whether a whole number of steps `10 ^ exponent` rounds to the value. -/
def admits (r : Rounding) (exponent : Int) (n : Nat) : Bool :=
  let low := r.low.shiftDecimal exponent
  let high := r.high.shiftDecimal exponent
  if r.closed then !low.exceeds n && high.atLeast n
  else !low.atLeast n && high.exceeds n

/-- Whether the lower of two neighbours on the decimal grid is at least as near. -/
def lowerIsNearer (r : Rounding) (exponent : Int) (lower : Nat) : Bool :=
  let x := r.value.shiftDecimal exponent
  -- The distances are compared without dividing.
  let twice := 2 * x.num
  let middle := (2 * lower + 1) * x.den
  twice < middle || (twice == middle && lower % 2 == 0)

/-- The neighbour of the value on a decimal grid that reads back. -/
def onGrid? (r : Rounding) (exponent : Int) : Option Nat :=
  let lower := (r.value.shiftDecimal exponent).floor
  match r.admits exponent lower, r.admits exponent (lower + 1) with
  | true, true => some (if r.lowerIsNearer exponent lower then lower else lower + 1)
  | true, false => some lower
  | false, true => some (lower + 1)
  | false, false => none

/-- The fewest digits, from `digits` on, that read back, and the power of ten of the last digit. -/
def shortestFrom (r : Rounding) (first : Int) : Nat → Nat → Nat × Int
  | 0, digits => ((r.value.shiftDecimal (first - digits + 1)).floor, first - digits + 1)
  | left + 1, digits =>
    let exponent := first - digits + 1
    match r.onGrid? exponent with
    | some n => (n, exponent)
    | none => shortestFrom r first left (digits + 1)

/-- The shortest decimal digits and the power of ten of the last one; 17 digits always suffice. -/
def shortest (r : Rounding) : Nat × Int := r.shortestFrom r.value.decimalExponent 17 1

end Rounding

/-- The numbers that round to a positive finite double, given by its bits without the sign. -/
def roundingOfBits (bits : Nat) : Rounding :=
  let fraction : Nat := bits % 0x10000000000000
  let biased : Nat := bits / 0x10000000000000
  let m : Nat := if biased = 0 then fraction else fraction + 0x10000000000000
  let q : Int := if biased = 0 then -1074 else Int.ofNat biased - 1075
  -- Below a power of two the gap is half as wide.
  let below := if fraction = 0 ∧ 1 < biased then 1 else 2
  ⟨.scaled (4 * m) (q - 2), .scaled (4 * m - below) (q - 2), .scaled (4 * m + 2) (q - 2), m % 2 = 0⟩

/-- Splits the zeros off the end of a number. -/
def dropZeros : Nat → Nat × Int → Nat × Int
  | 0, found => found
  | fuel + 1, (n, exponent) =>
    if n ≠ 0 ∧ n % 10 = 0 then dropZeros fuel (n / 10, exponent + 1) else (n, exponent)

/-- Decimal digits with the power of ten of the last: positional near one, else with an exponent. -/
def decimalText (n : Nat) (exponent : Int) : String :=
  let digits := (Nat.repr n).toList
  let length : Int := digits.length
  let point := length + exponent
  -- The first digit stands for ten to the power `point - 1`.
  if 0 ≤ exponent ∧ point ≤ 16 then
    String.ofList (digits ++ List.replicate exponent.toNat '0' ++ ['.', '0'])
  else if 0 < point ∧ point ≤ 16 then
    String.ofList (digits.take point.toNat ++ ['.'] ++ digits.drop point.toNat)
  else if -5 < point ∧ point ≤ 0 then
    String.ofList (['0', '.'] ++ List.replicate (-point).toNat '0' ++ digits)
  else
    let power := point - 1
    let size := (Nat.repr power.natAbs).toList
    let padded := if size.length < 2 then '0' :: size else size
    String.ofList (digits.take 1 ++ (if digits.length = 1 then [] else '.' :: digits.drop 1) ++
      ['e', if power < 0 then '-' else '+'] ++ padded)

/-- The text of a finite double: the fewest digits that read back. -/
def floatText (x : Float) : String :=
  -- The sign is the highest bit, and all others give the size.
  let bits := x.toBits.toNat
  let sign := if bits / 0x8000000000000000 = 1 then "-" else ""
  let magnitude := bits % 0x8000000000000000
  -- There are two zeros, which differ in the sign only.
  if magnitude = 0 then sign ++ "0.0"
  else
    let (n, exponent) := dropZeros 17 (roundingOfBits magnitude).shortest
    sign ++ decimalText n exponent

end KeyedCoding.Text
