import Strata.Json.Value

/-!
# JSON numbers

A number is an integer if it has neither a fraction nor an exponent and fits
into 64 bits; a minus sign makes zero a fraction.  Of any other number the
digits are taken up to the last one that fits into 64 bits, and the result is
scaled by a power of ten.  A number beyond all fractions stands for nothing.
-/

namespace Strata.Json

/-- The digits that a text begins with, and the rest. -/
def spanDigits
    (text : List Char) :
    List Char × List Char :=
  (text.takeWhile Char.isDigit, text.dropWhile Char.isDigit)

/-- The value of a digit. -/
def digitValue
    (digit : Char) :
    Nat :=
  digit.toNat - '0'.toNat

/-- The largest number that fits into 64 bits. -/
def wordLimit : Nat := Nat.pow 2 64 - 1

/-- Takes digits up to a number as long as it fits, and gives how many were
left over. -/
def absorb
    (number : Nat) :
    List Char → Nat × Nat
  | [] => (number, 0)
  | digit :: rest =>
    let next := number * 10 + digitValue digit
    if next ≤ wordLimit then absorb next rest else (number, rest.length + 1)

/-- A power of ten. -/
def powerOfTen
    (exponent : Nat) :
    Float :=
  Float.ofScientific 1 false exponent

/-- A number scaled by a power of ten, unless it gets too large. -/
def scaled?
    (number : Nat)
    (exponent : Int) :
    Option Float :=
  let value := number.toUInt64.toFloat
  let places := exponent.natAbs
  if 0 ≤ exponent then
    if places ≤ 308 then
      let product := value * powerOfTen places
      if product.isInf then none else some product
    else if number = 0 then
      some 0
    else
      none
  else if places ≤ 308 then
    some (value / powerOfTen places)
  else if places ≤ 616 then
    some (value / powerOfTen 308 / powerOfTen (places - 308))
  else
    some 0

/-- The first exponent that is not looked at any more. -/
def exponentLimit : Nat := Nat.pow 2 31

/-- A number with the parts of its text. -/
structure Parts where
  negative : Bool
  whole : List Char
  /-- The digits behind the point, if there is one. -/
  fraction : Option (List Char)
  /-- Whether the exponent is negative, and its digits, if there is one. -/
  exponent : Option (Bool × List Char)
  deriving DecidableEq, Repr

namespace Parts

/-- The number as a fraction. -/
def toFraction
    (parts : Parts) :
    Json :=
  let (number, left) := absorb 0 parts.whole
  let fraction := parts.fraction.getD []
  let (number, ignored) := absorb number fraction
  let places : Int := left - (fraction.length - ignored)
  let exponent : Int :=
    match parts.exponent with
    | none => 0
    | some (negative, digits) =>
      let size : Nat := min exponentLimit (absorb 0 digits).1
      if negative then -(size : Int) else size
  match scaled? number (places + exponent) with
  | none => .valueless
  | some value =>
    .real (if parts.negative then (-value).toBits else value.toBits)

/-- The number that the parts stand for. -/
def toJson
    (parts : Parts) :
    Json :=
  match parts.fraction, parts.exponent, absorb 0 parts.whole with
  | none, none, (number, 0) =>
    if !parts.negative then
      .integer number
    else if number = 0 ∨ Nat.pow 2 63 < number then
      parts.toFraction
    else
      .integer (-number)
  | _, _, _ => parts.toFraction

end Parts

/-- Reads the exponent of a number, if there is one. -/
def exponentPart? :
    List Char → Option (Option (Bool × List Char) × List Char)
  | letter :: rest =>
    if letter = 'e' ∨ letter = 'E' then
      let (negative, rest) :=
        match rest with
        | '+' :: rest => (false, rest)
        | '-' :: rest => (true, rest)
        | rest => (false, rest)
      let (digits, rest) := spanDigits rest
      if digits.isEmpty then none else some (some (negative, digits), rest)
    else
      some (none, letter :: rest)
  | [] => some (none, [])

/-- Reads the fraction of a number, if there is one. -/
def fractionPart? :
    List Char → Option (Option (List Char) × List Char)
  | '.' :: rest =>
    let (digits, rest) := spanDigits rest
    if digits.isEmpty then none else some (some digits, rest)
  | rest => some (none, rest)

/-- Reads a number that begins with a digit or a minus sign. -/
def number?
    (text : List Char) :
    Option (Json × List Char) := do
  let (negative, rest) :=
    match text with
    | '-' :: rest => (true, rest)
    | rest => (false, rest)
  let (whole, rest) := spanDigits rest
  if whole.isEmpty ∨ (whole.head? = some '0' ∧ 1 < whole.length) then
    failure
  let (fraction, rest) ← fractionPart? rest
  let (exponent, rest) ← exponentPart? rest
  let parts : Parts := { negative, whole, fraction, exponent }
  return (parts.toJson, rest)

end Strata.Json
