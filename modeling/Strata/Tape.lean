import Strata.Bytes
import Strata.Crypto.Sha256

/-!
# Tapes of random bytes

Nonces, pads and salts are read off a tape that never ends.  What is written
on it is settled before the first byte is read, so a statement about every
tape is a statement about every choice of nonces and pads.
-/

namespace Strata

/-- An endless row of bytes, read up to a position. -/
structure Tape where
  byteAt : Nat → UInt8
  position : Nat := 0

namespace Tape

instance : Inhabited Tape :=
  ⟨{ byteAt := fun _ => 0 }⟩

/-- The next `count` bytes, and the tape behind them. -/
def take
    (tape : Tape)
    (count : Nat) :
    Bytes × Tape :=
  ((List.range count).map fun index => tape.byteAt (tape.position + index),
    { tape with position := tape.position + count })

@[simp]
theorem length_take
    (tape : Tape)
    (count : Nat) :
    (tape.take count).1.length = count := by
  simp [take]

/-- The eight bytes of a number below 2 ^ 64, the lowest one first. -/
def numberBytes
    (number : Nat) :
    Bytes :=
  (List.range 8).map fun index => (number / Nat.pow 256 index).toUInt8

/-- The tape that is spread out from a seed by hashing it with the number of
each stretch of thirty-two bytes. -/
def ofSeed
    (seed : Bytes) :
    Tape where
  byteAt index :=
    (Sha256.hash (seed ++ numberBytes (index / 32))).getD (index % 32) 0

end Tape

end Strata
