/-!
# Bytes as a field

The 256 bytes are the polynomials of degree below eight over two elements,
and are multiplied modulo a polynomial of degree eight.  The reduction is
given by the byte that stands for `x ^ 8`.  Addition is the exclusive or, and
multiplication adds up the doublings of one factor that the bits of the other
one select.
-/

namespace Strata.ByteField

/-- Twice a byte, where `reduction` stands for `x ^ 8`. -/
@[inline]
def double
    (reduction byte : UInt8) :
    UInt8 :=
  (byte <<< 1) ^^^ (if byte &&& 0x80 = 0 then 0 else reduction)

/-- Adds to `sum` the product of two bytes over the lowest `bits` of the
second one. -/
def addProduct
    (reduction : UInt8)
    (sum left right : UInt8) :
    (bits : Nat) → UInt8
  | 0 => sum
  | bits + 1 =>
    addProduct reduction
      (if right &&& 1 = 0 then sum else sum ^^^ left)
      (double reduction left) (right >>> 1) bits

/-- The product of two bytes. -/
def product
    (reduction left right : UInt8) :
    UInt8 :=
  addProduct reduction 0 left right 8

/-- A power of a byte. -/
def power
    (reduction byte : UInt8) :
    (exponent : Nat) → UInt8
  | 0 => 1
  | exponent + 1 => product reduction byte (power reduction byte exponent)

/-- The inverse of a byte, which is its power 254; zero stays zero. -/
def inverse
    (reduction byte : UInt8) :
    UInt8 :=
  power reduction byte 254

end Strata.ByteField
