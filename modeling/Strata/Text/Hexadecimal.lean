import Strata.Bytes
import Strata.Text.Quoted

/-!
# Hexadecimal text

Each byte is written as two hexadecimal digits, the high half first, in lower
case; reading accepts both cases.  Reading looks at the bytes of the text: an
odd number of them is reported first, and otherwise the first byte that is no
digit.
-/

namespace Strata.Text.Hexadecimal

/-- Why a text is not hexadecimal. -/
inductive Fault where
  | oddLength
  | badDigit (byte : UInt8) (position : Nat)
  deriving DecidableEq, Repr

/-- The wording of a fault. -/
def Fault.message :
    Fault → String
  | .oddLength => "Odd number of digits"
  | .badDigit byte position =>
    "Invalid character " ++ quotedCharacter (Char.ofNat byte.toNat) ++
      " at position " ++ toString position

/-- The digit that stands for a value below sixteen. -/
def digit
    (value : UInt8) :
    UInt8 :=
  if value < 10 then 48 + value else 87 + value

/-- The value that a digit stands for. -/
def value?
    (byte : UInt8) :
    Option UInt8 :=
  if 48 ≤ byte ∧ byte ≤ 57 then
    some (byte - 48)
  else if 97 ≤ byte ∧ byte ≤ 102 then
    some (byte - 87)
  else if 65 ≤ byte ∧ byte ≤ 70 then
    some (byte - 55)
  else
    none

/-- The digits of a byte string. -/
def encode :
    Bytes → Bytes
  | [] => []
  | byte :: rest => digit (byte >>> 4) :: digit (byte &&& 15) :: encode rest

/-- Reads digits two by two, where the first digit stands at `position`. -/
def decodeFrom
    (position : Nat) :
    Bytes → Except Fault Bytes
  | high :: low :: rest => do
    let some upper := value? high | throw (.badDigit high position)
    let some lower := value? low | throw (.badDigit low (position + 1))
    let decoded ← decodeFrom (position + 2) rest
    return (upper <<< 4 ||| lower) :: decoded
  | _ => return []

/-- Reads a string of digits. -/
def decode
    (digits : Bytes) :
    Except Fault Bytes :=
  if digits.length % 2 = 1 then
    throw .oddLength
  else
    decodeFrom 0 digits

/-- The digits of a byte string as a text. -/
def render
    (bytes : Bytes) :
    String :=
  String.ofList ((encode bytes).map fun byte => Char.ofNat byte.toNat)

/-- Reads the digits of a text. -/
def parse
    (text : String) :
    Except Fault Bytes :=
  decode text.toUTF8.toList

end Strata.Text.Hexadecimal
