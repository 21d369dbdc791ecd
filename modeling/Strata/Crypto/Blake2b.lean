import Strata.Bytes

/-!
# The BLAKE2b hash without a key

The string is cut into pieces of 128 bytes; each piece stirs a state of eight
words in twelve rounds, and the last piece is marked.  The hash may have any
length up to sixty-four bytes, and the length is part of what is hashed.
-/

namespace Strata.Blake2b

/-- The first sixty-four bits of the fractional parts of the square roots of
the first eight primes. -/
def initial :
    Array UInt64 :=
  #[0x6a09e667f3bcc908, 0xbb67ae8584caa73b, 0x3c6ef372fe94f82b,
    0xa54ff53a5f1d36f1, 0x510e527fade682d1, 0x9b05688c2b3e6c1f,
    0x1f83d9abfb41bd6b, 0x5be0cd19137e2179]

/-- The order in which each round takes the words of a piece; the rounds after
the tenth start again. -/
def orders :
    List (List Nat) :=
  [[0, 1, 2, 3, 4, 5, 6, 7, 8, 9, 10, 11, 12, 13, 14, 15],
    [14, 10, 4, 8, 9, 15, 13, 6, 1, 12, 0, 2, 11, 7, 5, 3],
    [11, 8, 12, 0, 5, 2, 15, 13, 10, 14, 3, 6, 7, 1, 9, 4],
    [7, 9, 3, 1, 13, 12, 11, 14, 2, 6, 5, 10, 4, 0, 15, 8],
    [9, 0, 5, 7, 2, 4, 10, 15, 14, 1, 11, 12, 6, 8, 3, 13],
    [2, 12, 6, 10, 0, 11, 8, 3, 4, 13, 7, 5, 15, 14, 1, 9],
    [12, 5, 1, 15, 14, 13, 4, 10, 0, 7, 6, 3, 9, 2, 8, 11],
    [13, 11, 7, 14, 12, 1, 3, 9, 5, 0, 15, 4, 8, 6, 2, 10],
    [6, 15, 14, 9, 11, 3, 0, 8, 12, 2, 13, 7, 1, 4, 10, 5],
    [10, 2, 8, 4, 7, 6, 1, 5, 15, 11, 9, 14, 3, 12, 13, 0],
    [0, 1, 2, 3, 4, 5, 6, 7, 8, 9, 10, 11, 12, 13, 14, 15],
    [14, 10, 4, 8, 9, 15, 13, 6, 1, 12, 0, 2, 11, 7, 5, 3]]

/-- The four places of a state that each half of a round stirs together: the
columns, then the diagonals. -/
def quarters :
    List (Nat × Nat × Nat × Nat) :=
  [(0, 4, 8, 12), (1, 5, 9, 13), (2, 6, 10, 14), (3, 7, 11, 15),
    (0, 5, 10, 15), (1, 6, 11, 12), (2, 7, 8, 13), (3, 4, 9, 14)]

/-- A word turned right by a number of bits between one and sixty-three. -/
@[inline]
def turnRight
    (word amount : UInt64) :
    UInt64 :=
  (word >>> amount) ||| (word <<< (64 - amount))

/-- Stirs four places of a state with two words of the piece. -/
def stir
    (first second : UInt64)
    (state : Array UInt64)
    (places : Nat × Nat × Nat × Nat) :
    Array UInt64 :=
  let (p, q, r, s) := places
  let a := state.getD p 0 + state.getD q 0 + first
  let d := turnRight (state.getD s 0 ^^^ a) 32
  let c := state.getD r 0 + d
  let b := turnRight (state.getD q 0 ^^^ c) 24
  let a := a + b + second
  let d := turnRight (d ^^^ a) 16
  let c := c + d
  let b := turnRight (b ^^^ c) 63
  (((state.setIfInBounds p a).setIfInBounds q b).setIfInBounds r
    c).setIfInBounds s d

/-- Stirs the places in turn, each with the next two words. -/
def stirAll
    (piece : Array UInt64)
    (state : Array UInt64) :
    List (Nat × Nat × Nat × Nat) → List Nat → Array UInt64
  | places :: rest, first :: second :: others =>
    stirAll piece
      (stir (piece.getD first 0) (piece.getD second 0) state places)
      rest others
  | _, _ => state

/-- The words of a string, eight bytes each with the first byte at the bottom,
zeros past the end. -/
def words
    (bytes : Bytes) :
    (count : Nat) → List UInt64
  | 0 => []
  | count + 1 =>
    ((bytes.take 8).foldr
      (fun byte word => (word <<< 8) ||| byte.toUInt64) 0) ::
      words (bytes.drop 8) count

/-- Takes one piece into the state; `total` is the number of bytes up to its
end. -/
def absorbPiece
    (state : Array UInt64)
    (piece : Bytes)
    (total : Nat)
    (last : Bool) :
    Array UInt64 :=
  let words := (words piece 16).toArray
  let start := state ++ initial
  let counted := start.modify 12 (· ^^^ total.toUInt64)
  let marked := if last then counted.modify 14 (~~~ ·) else counted
  let stirred := orders.foldl (stirAll words · quarters ·) marked
  (Array.range 8).map fun index =>
    state.getD index 0 ^^^ stirred.getD index 0 ^^^
      stirred.getD (index + 8) 0

/-- Takes the rest of a string into the state, after `done` bytes. -/
def absorb
    (state : Array UInt64)
    (done : Nat)
    (bytes : Bytes) :
    Array UInt64 :=
  let rest := bytes.drop 128
  if _ : rest = [] then
    absorbPiece state bytes (done + bytes.length) true
  else
    absorb (absorbPiece state (bytes.take 128) (done + 128) false)
      (done + 128) rest
termination_by bytes.length
decreasing_by
  have : (bytes.drop 128).length ≠ 0 := fun none =>
    ‹¬rest = []› (List.length_eq_zero_iff.mp none)
  simp only [List.length_drop] at this ⊢
  omega

/-- The `count` lowest bytes of a word, the lowest one first. -/
def lowBytes
    (word : UInt64) :
    (count : Nat) → Bytes
  | 0 => []
  | count + 1 => word.toUInt8 :: lowBytes (word >>> 8) count

/-- The hash of a string with `length` bytes, of which there are between one
and sixty-four. -/
def hash
    (length : Nat)
    (bytes : Bytes) :
    Bytes :=
  let start := initial.modify 0
    (· ^^^ 0x01010000 ^^^ length.toUInt64)
  ((absorb start 0 bytes).toList.flatMap (lowBytes · 8)).take length

end Strata.Blake2b
