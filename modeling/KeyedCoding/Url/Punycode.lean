/-! Punycode: how a label outside ASCII is carried by ASCII letters, digits and hyphens. -/

namespace KeyedCoding.Url.Punycode

/-- The number of digits. -/
def base : Nat := 36

/-- The least threshold of a digit. -/
def tMin : Nat := 1

/-- The greatest threshold of a digit. -/
def tMax : Nat := 26

/-- How fast the bias follows the lengths of the numbers. -/
def skew : Nat := 38

/-- How much the first number is damped. -/
def damp : Nat := 700

/-- The bias before the first number. -/
def initialBias : Nat := 72

/-- The code point before the first one that is inserted. -/
def initialCode : Nat := 128

/-- The number that a digit stands for. -/
def digit? (c : Char) : Option Nat :=
  if 'a' ≤ c ∧ c ≤ 'z' then some (c.toNat - 'a'.toNat)
  else if 'A' ≤ c ∧ c ≤ 'Z' then some (c.toNat - 'A'.toNat)
  else if '0' ≤ c ∧ c ≤ '9' then some (c.toNat - '0'.toNat + 26)
  else none

/-- Counts how often a difference has to be divided; what is left sets the rest of the bias. -/
def settle (delta k : Nat) : Nat :=
  if (base - tMin) * tMax / 2 < delta then settle (delta / (base - tMin)) (k + base)
  else k + (base - tMin + 1) * delta / (delta + skew)
termination_by delta
decreasing_by
  apply Nat.div_lt_self
  · simp only [base, tMin, tMax] at *; omega
  · decide

/-- The bias after a number, the first of all or a later one, when so many code points are there. -/
def adapt (delta count : Nat) (first : Bool) : Nat :=
  let delta := if first then delta / damp else delta / 2
  settle (delta + delta / count) 0

/-- The threshold of the digit at a place. -/
def threshold (k bias : Nat) : Nat :=
  if k ≤ bias + tMin then tMin else if bias + tMax ≤ k then tMax else k - bias

/-- Reads one number: its value added to `i`, and the digits after it. -/
def readNumber (bias : Nat) : Nat → Nat → Nat → List Char → Option (Nat × List Char)
  | _, _, _, [] => none
  | i, weight, k, c :: rest => do
    let digit ← digit? c
    let i := i + digit * weight
    let t := threshold k bias
    if digit < t then return (i, rest) else readNumber bias i (weight * (base - t)) (k + base) rest

/-- Reading a number consumes digits. -/
theorem readNumber_length_lt {bias i weight k : Nat} {cs : List Char} {value : Nat}
    {rest : List Char} (read : readNumber bias i weight k cs = some (value, rest)) :
    rest.length < cs.length := by
  -- Each digit is consumed, and the last one ends the number.
  induction cs generalizing i weight k with
  | nil => simp [readNumber] at read
  | cons c tail ih =>
    rw [readNumber] at read
    cases found : digit? c with
    | none => simp [found] at read
    | some digit =>
      simp only [found, Option.bind_eq_bind, Option.bind_some] at read
      split at read
      · simp only [Option.pure_def, Option.some.injEq, Prod.mk.injEq] at read
        simp [← read.2]
      · have := ih read
        simp only [List.length_cons]; omega

/-- Inserts the code points that the numbers tell into those that are there. -/
def insertAll (code i bias : Nat) (there : List Char) (digits : List Char) : Option (List Char) :=
  if digits.isEmpty then some there
  else
    match read : readNumber bias i 1 base digits with
    | none => none
    | some (j, rest) =>
      have := readNumber_length_lt read
      -- With each insertion there is one more place.
      let count := there.length + 1
      let next := code + j / count
      let place := j % count
      if next.isValidChar then
        insertAll next (place + 1) (adapt (j - i) count (i = 0))
          (there.take place ++ [Char.ofNat next] ++ there.drop place) rest
      else none
termination_by digits.length

/-- The basic code points before the last hyphen, and the digits after it. -/
def splitBasic (label : List Char) : List Char × List Char :=
  let tail := (label.reverse.takeWhile (· ≠ '-')).reverse
  if tail.length = label.length then ([], label)
  else (label.take (label.length - tail.length - 1), tail)

/-- Reads a label. -/
def decode? (label : List Char) : Option (List Char) :=
  let (basic, digits) := splitBasic label
  if basic.all (·.toNat < 0x80) then insertAll initialCode 0 initialBias basic digits else none

end KeyedCoding.Url.Punycode
