import Strata.ByteField
import Strata.Bytes

/-!
# The AES block cipher with a key of 256 bits

The state of the cipher is four columns of four bytes, each column one word
with the first byte at the top.  One round substitutes every byte, rotates the
rows and mixes the columns; the three together are one look-up per byte in a
table of columns, which the table of the substitution determines.
-/

namespace Strata.Aes

/-- What stands for `x ^ 8` in the field of the cipher. -/
def reduction :
    UInt8 :=
  0x1b

/-- A byte turned left by a number of bits below eight. -/
def turn
    (byte amount : UInt8) :
    UInt8 :=
  (byte <<< amount) ||| (byte >>> (8 - amount))

/-- The substitution of a byte. -/
def substitute
    (byte : UInt8) :
    UInt8 :=
  let core := ByteField.inverse reduction byte
  core ^^^ turn core 1 ^^^ turn core 2 ^^^ turn core 3 ^^^ turn core 4 ^^^ 0x63

/-- The word of four bytes, the first one at the top. -/
def word
    (first second third fourth : UInt8) :
    UInt32 :=
  (first.toUInt32 <<< 24) ||| (second.toUInt32 <<< 16) |||
    (third.toUInt32 <<< 8) ||| fourth.toUInt32

/-- The substitution of every byte. -/
def substitutes :
    Array UInt32 :=
  (Array.range 256).map fun value => (substitute value.toUInt8).toUInt32

/-- The mixed column that a byte in the first row gives after substitution. -/
def mixedColumns :
    Array UInt32 :=
  (Array.range 256).map fun value =>
    let byte := substitute value.toUInt8
    let twice := ByteField.double reduction byte
    word twice byte byte (twice ^^^ byte)

/-- The byte of a word that lies `shift` bits up. -/
@[inline]
def byteAt
    (value shift : UInt32) :
    Nat :=
  ((value >>> shift) &&& 0xff).toNat

/-- The substitution of each byte of a word. -/
def substituteWord
    (value : UInt32) :
    UInt32 :=
  (substitutes.getD (byteAt value 24) 0 <<< 24) |||
    (substitutes.getD (byteAt value 16) 0 <<< 16) |||
    (substitutes.getD (byteAt value 8) 0 <<< 8) |||
    substitutes.getD (byteAt value 0) 0

/-- A word turned right by a number of bits between one and thirty-one. -/
@[inline]
def turnRight
    (value amount : UInt32) :
    UInt32 :=
  (value >>> amount) ||| (value <<< (32 - amount))

/-- Four columns: a state or a round key. -/
structure Columns where
  first : UInt32
  second : UInt32
  third : UInt32
  fourth : UInt32
  deriving DecidableEq, Repr, Inhabited

namespace Columns

/-- The columns of the first sixteen bytes of a string, zeros past its end. -/
def ofBytes
    (bytes : Bytes) :
    Columns :=
  let byte := fun index => bytes.getD index 0
  { first := word (byte 0) (byte 1) (byte 2) (byte 3)
    second := word (byte 4) (byte 5) (byte 6) (byte 7)
    third := word (byte 8) (byte 9) (byte 10) (byte 11)
    fourth := word (byte 12) (byte 13) (byte 14) (byte 15) }

/-- The four bytes of a word, the top one first. -/
def wordBytes
    (value : UInt32) :
    Bytes :=
  [(value >>> 24).toUInt8, (value >>> 16).toUInt8,
    (value >>> 8).toUInt8, value.toUInt8]

/-- The sixteen bytes of four columns. -/
def toBytes
    (columns : Columns) :
    Bytes :=
  wordBytes columns.first ++ wordBytes columns.second ++
    wordBytes columns.third ++ wordBytes columns.fourth

@[simp]
theorem length_toBytes
    (columns : Columns) :
    columns.toBytes.length = 16 :=
  rfl

end Columns

/-- The column that one round makes of the four columns that its rows come
from, without the round key. -/
@[inline]
def mixedColumn
    (row0 row1 row2 row3 : UInt32) :
    UInt32 :=
  mixedColumns.getD (byteAt row0 24) 0 ^^^
    turnRight (mixedColumns.getD (byteAt row1 16) 0) 8 ^^^
    turnRight (mixedColumns.getD (byteAt row2 8) 0) 16 ^^^
    turnRight (mixedColumns.getD (byteAt row3 0) 0) 24

/-- The column that the last round makes, which does not mix. -/
@[inline]
def lastColumn
    (row0 row1 row2 row3 : UInt32) :
    UInt32 :=
  (substitutes.getD (byteAt row0 24) 0 <<< 24) |||
    (substitutes.getD (byteAt row1 16) 0 <<< 16) |||
    (substitutes.getD (byteAt row2 8) 0 <<< 8) |||
    substitutes.getD (byteAt row3 0) 0

/-- A round key put on a state. -/
@[inline]
def addKey
    (state key : Columns) :
    Columns :=
  { first := state.first ^^^ key.first
    second := state.second ^^^ key.second
    third := state.third ^^^ key.third
    fourth := state.fourth ^^^ key.fourth }

/-- One round but the last. -/
def round
    (state key : Columns) :
    Columns :=
  { first := key.first ^^^
      mixedColumn state.first state.second state.third state.fourth
    second := key.second ^^^
      mixedColumn state.second state.third state.fourth state.first
    third := key.third ^^^
      mixedColumn state.third state.fourth state.first state.second
    fourth := key.fourth ^^^
      mixedColumn state.fourth state.first state.second state.third }

/-- The last round. -/
def lastRound
    (state key : Columns) :
    Columns :=
  { first := key.first ^^^
      lastColumn state.first state.second state.third state.fourth
    second := key.second ^^^
      lastColumn state.second state.third state.fourth state.first
    third := key.third ^^^
      lastColumn state.third state.fourth state.first state.second
    fourth := key.fourth ^^^
      lastColumn state.fourth state.first state.second state.third }

/-- The round keys of a cipher in the order of their use. -/
structure Schedule where
  first : Columns
  middle : List Columns
  last : Columns
  deriving Repr, Inhabited

/-- The four words that follow `older`, given the word `mask` that goes on its
first one. -/
def nextColumns
    (older : Columns)
    (mask : UInt32) :
    Columns :=
  let first := older.first ^^^ mask
  let second := older.second ^^^ first
  let third := older.third ^^^ second
  { first, second, third, fourth := older.fourth ^^^ third }

/-- The round keys after `older` and `newer`, two for each round constant. -/
def laterKeys
    (older newer : Columns) :
    List UInt32 → List Columns
  | [] => []
  | constant :: rest =>
    let even := nextColumns older
      (substituteWord (turnRight newer.fourth 24) ^^^ constant)
    let odd := nextColumns newer (substituteWord even.fourth)
    even :: odd :: laterKeys even odd rest

/-- The constants that keep the rounds apart. -/
def roundConstants :
    List UInt32 :=
  [0x01000000, 0x02000000, 0x04000000, 0x08000000, 0x10000000, 0x20000000,
    0x40000000]

/-- The round keys of a key of thirty-two bytes. -/
def Schedule.ofKey
    (key : Bytes) :
    Schedule :=
  let first := Columns.ofBytes key
  let second := Columns.ofBytes (key.drop 16)
  let later := laterKeys first second roundConstants
  { first
    middle := (second :: later).take 13
    last := (second :: later).getD 13 default }

/-- Encrypts one state. -/
def encrypt
    (schedule : Schedule)
    (state : Columns) :
    Columns :=
  lastRound
    (schedule.middle.foldl round (addKey state schedule.first))
    schedule.last

end Strata.Aes
