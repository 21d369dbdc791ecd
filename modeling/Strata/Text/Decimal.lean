/-!
# Decimal text of binary fractions

A number that is stored as a binary fraction is written with the fewest
decimal digits that still name it among all numbers that can be stored.  Of
the decimals with that many digits the nearest one is taken.  The arithmetic
is exact: a number is a ratio of natural numbers, and the numbers that round
to it lie between two other ratios with the same denominator.
-/

namespace Strata.Text.Decimal

/-- A positive stored number and the bounds of what rounds to it, all over one
denominator. -/
structure Interval where
  low : Nat
  middle : Nat
  high : Nat
  denominator : Nat
  /-- Whether the bounds themselves round to the number. -/
  closed : Bool
  deriving DecidableEq, Repr

/-- The interval of the number `significand * 2 ^ exponent`.  A number with
the least significand is nearer to the number below it. -/
def interval
    (significand : Nat)
    (exponent : Int)
    (least : Bool) :
    Interval :=
  let scale := Nat.pow 2 (exponent - 2).toNat
  { low := (4 * significand - if least then 1 else 2) * scale
    middle := 4 * significand * scale
    high := (4 * significand + 2) * scale
    denominator := Nat.pow 2 (2 - exponent).toNat
    closed := significand % 2 == 0 }

/-- Whether `digits * 10 ^ exponent` rounds to the number. -/
def Interval.holds
    (interval : Interval)
    (digits : Nat)
    (exponent : Int) :
    Bool :=
  let value := digits * Nat.pow 10 exponent.toNat * interval.denominator
  let scale := Nat.pow 10 (-exponent).toNat
  if interval.closed then
    decide (interval.low * scale ≤ value ∧ value ≤ interval.high * scale)
  else
    decide (interval.low * scale < value ∧ value < interval.high * scale)

/-- The number of decimal digits of a natural number. -/
def digitCount
    (number : Nat) :
    Nat :=
  (Nat.toDigits 10 number).length

/-- The exponent of ten of the first digit of a number. -/
def Interval.magnitude
    (interval : Interval) :
    Int :=
  let whole := interval.middle / interval.denominator
  if whole ≠ 0 then
    digitCount whole - 1
  else
    let places := (List.range 400).find? fun places =>
      decide (interval.denominator ≤ interval.middle * Nat.pow 10 (places + 1))
    Int.negSucc (places.getD 0)

/-- The neighbours of the number on the grid of `10 ^ exponent` that round to
it, the nearer one first. -/
def Interval.neighbours
    (interval : Interval)
    (exponent : Int) :
    List Nat :=
  let value := interval.middle * Nat.pow 10 (-exponent).toNat
  let step := Nat.pow 10 exponent.toNat * interval.denominator
  let below := value / step
  let above := below + 1
  let nearer :=
    if 2 * (value % step) < step ∨
        (2 * (value % step) = step ∧ below % 2 = 0) then
      [below, above]
    else
      [above, below]
  nearer.filter fun digits => interval.holds digits exponent

/-- The digits of the shortest decimal, and the exponent of the last one. -/
def Interval.shortest
    (interval : Interval) :
    Nat × Int :=
  let magnitude := interval.magnitude
  let found := (List.range 17).findSome? fun (count : Nat) =>
    let exponent : Int := magnitude - count
    (interval.neighbours exponent).head?.map fun digits => (digits, exponent)
  found.getD (0, 0)

/-- A number without the zeros that it ends in, and their number. -/
def withoutZeros
    (fuel : Nat)
    (number : Nat) :
    Nat × Nat :=
  match fuel with
  | 0 => (number, 0)
  | fuel + 1 =>
    if number % 10 = 0 then
      let (rest, zeros) := withoutZeros fuel (number / 10)
      (rest, zeros + 1)
    else
      (number, 0)

/-- The text of an exponent: a sign and at least two digits. -/
def exponentText
    (exponent : Int) :
    List Char :=
  let digits := Nat.toDigits 10 exponent.natAbs
  (if exponent < 0 then ['e', '-'] else ['e', '+']) ++
    List.replicate (2 - digits.length) '0' ++ digits

/-- The text of digits whose first one has the given exponent.  From the fifth
place behind the point to the sixteenth before it digits are written in
place, and otherwise with an exponent. -/
def layout
    (digits : List Char)
    (magnitude : Int) :
    List Char :=
  if magnitude < -5 ∨ 15 < magnitude then
    let fraction := digits.drop 1
    digits.take 1 ++ (if fraction.isEmpty then [] else '.' :: fraction) ++
      exponentText magnitude
  else if magnitude < 0 then
    ['0', '.'] ++ List.replicate (-magnitude - 1).toNat '0' ++ digits
  else
    let places := magnitude.toNat + 1
    let fraction := digits.drop places
    digits.take places ++ List.replicate (places - digits.length) '0' ++
      '.' :: (if fraction.isEmpty then ['0'] else fraction)

/-- The shortest text of a number with 53 binary digits, an exponent of eleven
bits and a sign. -/
def ofBits
    (bits : UInt64) :
    String :=
  let fraction := bits.toNat % Nat.pow 2 52
  let exponent : Nat := bits.toNat / Nat.pow 2 52 % Nat.pow 2 11
  let sign := if bits.toNat / Nat.pow 2 63 = 1 then ['-'] else []
  if exponent = 0 ∧ fraction = 0 then
    String.ofList (sign ++ "0.0".toList)
  else
    let stored :=
      if exponent = 0 then
        interval fraction (-1074) false
      else
        interval (fraction + Nat.pow 2 52) ((exponent : Int) - 1075)
          (fraction = 0 ∧ 1 < exponent)
    let (number, last) := stored.shortest
    let (number, zeros) := withoutZeros 20 number
    let digits := Nat.toDigits 10 number
    String.ofList (sign ++ layout digits (last + zeros + digits.length - 1))

end Strata.Text.Decimal
