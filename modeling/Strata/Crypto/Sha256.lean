import Strata.Bytes

/-!
# The SHA-256 hash

The string is filled up to whole pieces of sixty-four bytes with a one bit,
zeros and its length in bits; each piece is stretched to sixty-four words that
stir the eight words of the state.
-/

namespace Strata.Sha256

/-- The first thirty-two bits of the fractional parts of the cube roots of the
first sixty-four primes. -/
def constants :
    List UInt32 :=
  [0x428a2f98, 0x71374491, 0xb5c0fbcf, 0xe9b5dba5, 0x3956c25b, 0x59f111f1,
    0x923f82a4, 0xab1c5ed5, 0xd807aa98, 0x12835b01, 0x243185be, 0x550c7dc3,
    0x72be5d74, 0x80deb1fe, 0x9bdc06a7, 0xc19bf174, 0xe49b69c1, 0xefbe4786,
    0x0fc19dc6, 0x240ca1cc, 0x2de92c6f, 0x4a7484aa, 0x5cb0a9dc, 0x76f988da,
    0x983e5152, 0xa831c66d, 0xb00327c8, 0xbf597fc7, 0xc6e00bf3, 0xd5a79147,
    0x06ca6351, 0x14292967, 0x27b70a85, 0x2e1b2138, 0x4d2c6dfc, 0x53380d13,
    0x650a7354, 0x766a0abb, 0x81c2c92e, 0x92722c85, 0xa2bfe8a1, 0xa81a664b,
    0xc24b8b70, 0xc76c51a3, 0xd192e819, 0xd6990624, 0xf40e3585, 0x106aa070,
    0x19a4c116, 0x1e376c08, 0x2748774c, 0x34b0bcb5, 0x391c0cb3, 0x4ed8aa4a,
    0x5b9cca4f, 0x682e6ff3, 0x748f82ee, 0x78a5636f, 0x84c87814, 0x8cc70208,
    0x90befffa, 0xa4506ceb, 0xbef9a3f7, 0xc67178f2]

/-- The eight words of the state. -/
structure State where
  a : UInt32
  b : UInt32
  c : UInt32
  d : UInt32
  e : UInt32
  f : UInt32
  g : UInt32
  h : UInt32
  deriving DecidableEq, Repr, Inhabited

/-- The state before the first piece. -/
def State.initial :
    State :=
  { a := 0x6a09e667
    b := 0xbb67ae85
    c := 0x3c6ef372
    d := 0xa54ff53a
    e := 0x510e527f
    f := 0x9b05688c
    g := 0x1f83d9ab
    h := 0x5be0cd19 }

/-- A word turned right by a number of bits between one and thirty-one. -/
def turnRight
    (word amount : UInt32) :
    UInt32 :=
  (word >>> amount) ||| (word <<< (32 - amount))

/-- Extends a schedule, kept with its last word first, by `count` words. -/
def stretch
    (words : List UInt32) :
    (count : Nat) → List UInt32
  | 0 => words
  | count + 1 =>
    let near := words.getD 1 0
    let far := words.getD 14 0
    let word :=
      (turnRight near 17 ^^^ turnRight near 19 ^^^ (near >>> 10)) +
        words.getD 6 0 +
        (turnRight far 7 ^^^ turnRight far 18 ^^^ (far >>> 3)) +
        words.getD 15 0
    stretch (word :: words) count

/-- Stirs the state with one constant and one word. -/
def stir
    (state : State)
    (entry : UInt32 × UInt32) :
    State :=
  let chosen := (state.e &&& state.f) ^^^ (~~~state.e &&& state.g)
  let majority :=
    (state.a &&& state.b) ^^^ (state.a &&& state.c) ^^^ (state.b &&& state.c)
  let first := state.h + chosen + entry.1 + entry.2 +
    (turnRight state.e 6 ^^^ turnRight state.e 11 ^^^ turnRight state.e 25)
  let second := majority +
    (turnRight state.a 2 ^^^ turnRight state.a 13 ^^^ turnRight state.a 22)
  { a := first + second
    b := state.a
    c := state.b
    d := state.c
    e := state.d + first
    f := state.e
    g := state.f
    h := state.g }

/-- The words of a string, four bytes each with the first byte at the top. -/
def words :
    Bytes → List UInt32
  | first :: second :: third :: fourth :: rest =>
    ((first.toUInt32 <<< 24) ||| (second.toUInt32 <<< 16) |||
      (third.toUInt32 <<< 8) ||| fourth.toUInt32) :: words rest
  | _ => []

/-- Takes one piece of sixty-four bytes into the state. -/
def absorbPiece
    (state : State)
    (piece : Bytes) :
    State :=
  let schedule := (stretch (words piece).reverse 48).reverse
  let stirred := (constants.zip schedule).foldl stir state
  { a := state.a + stirred.a
    b := state.b + stirred.b
    c := state.c + stirred.c
    d := state.d + stirred.d
    e := state.e + stirred.e
    f := state.f + stirred.f
    g := state.g + stirred.g
    h := state.h + stirred.h }

/-- The four bytes of a word, the top one first. -/
def wordBytes
    (word : UInt32) :
    Bytes :=
  [(word >>> 24).toUInt8, (word >>> 16).toUInt8, (word >>> 8).toUInt8,
    word.toUInt8]

/-- The string filled up to whole pieces. -/
def padded
    (bytes : Bytes) :
    Bytes :=
  let bits := (8 * bytes.length).toUInt64
  bytes ++ [(0x80 : UInt8)] ++ Bytes.zeros ((119 - bytes.length % 64) % 64) ++
    wordBytes (bits >>> 32).toUInt32 ++ wordBytes bits.toUInt32

/-- The hash of a string, thirty-two bytes. -/
def hash
    (bytes : Bytes) :
    Bytes :=
  let state := (Bytes.chunks 64 (padded bytes)).foldl absorbPiece .initial
  [state.a, state.b, state.c, state.d, state.e, state.f, state.g,
    state.h].flatMap wordBytes

end Strata.Sha256
