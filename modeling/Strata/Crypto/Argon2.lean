import Strata.Crypto.Blake2b

/-!
# The Argon2id stretching of passphrases

A passphrase and a salt are hashed into the first two blocks of every lane of
a memory.  The memory is then filled several times over, each block from the
block before it and from one that a pair of words picks; in the first half of
the first pass these words come from a counter, later from the memory itself.
The key is hashed from the last blocks of all lanes.

A block is eight rows of sixteen words.  It is also eight columns of eight
pairs of words, and the mixing of a block stirs first its rows and then its
columns.
-/

namespace Strata.Argon2

/-- Sixteen words that are stirred together. -/
structure Row where
  w0 : UInt64
  w1 : UInt64
  w2 : UInt64
  w3 : UInt64
  w4 : UInt64
  w5 : UInt64
  w6 : UInt64
  w7 : UInt64
  w8 : UInt64
  w9 : UInt64
  w10 : UInt64
  w11 : UInt64
  w12 : UInt64
  w13 : UInt64
  w14 : UInt64
  w15 : UInt64
  deriving DecidableEq, Repr, Inhabited

/-- Four words that are stirred together. -/
structure Quarter where
  a : UInt64
  b : UInt64
  c : UInt64
  d : UInt64

/-- A word turned right by a number of bits between one and sixty-three. -/
@[inline]
def turnRight
    (word amount : UInt64) :
    UInt64 :=
  (word >>> amount) ||| (word <<< (64 - amount))

/-- The sum of two words and of twice the product of their lower halves. -/
@[inline]
def blend
    (left right : UInt64) :
    UInt64 :=
  left + right + 2 * ((left &&& 0xffffffff) * (right &&& 0xffffffff))

/-- Stirs four words. -/
@[inline]
def stir
    (a b c d : UInt64) :
    Quarter :=
  let a := blend a b
  let d := turnRight (d ^^^ a) 32
  let c := blend c d
  let b := turnRight (b ^^^ c) 24
  let a := blend a b
  let d := turnRight (d ^^^ a) 16
  let c := blend c d
  let b := turnRight (b ^^^ c) 63
  ⟨a, b, c, d⟩

namespace Row

/-- The row of zeros. -/
def zero :
    Row :=
  ⟨0, 0, 0, 0, 0, 0, 0, 0, 0, 0, 0, 0, 0, 0, 0, 0⟩

/-- The words of a row. -/
def toList
    (row : Row) :
    List UInt64 :=
  [row.w0, row.w1, row.w2, row.w3, row.w4, row.w5, row.w6, row.w7, row.w8,
    row.w9, row.w10, row.w11, row.w12, row.w13, row.w14, row.w15]

/-- The row of the first sixteen words of a list, zeros past its end. -/
def ofList
    (words : List UInt64) :
    Row :=
  let word := fun index => words.getD index 0
  { w0 := word 0
    w1 := word 1
    w2 := word 2
    w3 := word 3
    w4 := word 4
    w5 := word 5
    w6 := word 6
    w7 := word 7
    w8 := word 8
    w9 := word 9
    w10 := word 10
    w11 := word 11
    w12 := word 12
    w13 := word 13
    w14 := word 14
    w15 := word 15 }

/-- The wordwise exclusive or. -/
def xor
    (left right : Row) :
    Row :=
  { w0 := left.w0 ^^^ right.w0
    w1 := left.w1 ^^^ right.w1
    w2 := left.w2 ^^^ right.w2
    w3 := left.w3 ^^^ right.w3
    w4 := left.w4 ^^^ right.w4
    w5 := left.w5 ^^^ right.w5
    w6 := left.w6 ^^^ right.w6
    w7 := left.w7 ^^^ right.w7
    w8 := left.w8 ^^^ right.w8
    w9 := left.w9 ^^^ right.w9
    w10 := left.w10 ^^^ right.w10
    w11 := left.w11 ^^^ right.w11
    w12 := left.w12 ^^^ right.w12
    w13 := left.w13 ^^^ right.w13
    w14 := left.w14 ^^^ right.w14
    w15 := left.w15 ^^^ right.w15 }

/-- Stirs the four columns of a row taken as a square, then its four
diagonals. -/
def permute
    (row : Row) :
    Row :=
  let ⟨v0, v4, v8, v12⟩ :=
    stir row.w0 row.w4 row.w8 row.w12
  let ⟨v1, v5, v9, v13⟩ :=
    stir row.w1 row.w5 row.w9 row.w13
  let ⟨v2, v6, v10, v14⟩ :=
    stir row.w2 row.w6 row.w10 row.w14
  let ⟨v3, v7, v11, v15⟩ :=
    stir row.w3 row.w7 row.w11 row.w15
  let ⟨v0, v5, v10, v15⟩ := stir v0 v5 v10 v15
  let ⟨v1, v6, v11, v12⟩ := stir v1 v6 v11 v12
  let ⟨v2, v7, v8, v13⟩ := stir v2 v7 v8 v13
  let ⟨v3, v4, v9, v14⟩ := stir v3 v4 v9 v14
  ⟨v0, v1, v2, v3, v4, v5, v6, v7, v8, v9, v10, v11, v12, v13, v14, v15⟩

end Row

/-- One block of the memory. -/
structure Block where
  r0 : Row
  r1 : Row
  r2 : Row
  r3 : Row
  r4 : Row
  r5 : Row
  r6 : Row
  r7 : Row
  deriving DecidableEq, Repr, Inhabited

namespace Block

/-- The block of zeros. -/
def zero :
    Block :=
  ⟨.zero, .zero, .zero, .zero, .zero, .zero, .zero, .zero⟩

/-- The words of a block. -/
def toList
    (block : Block) :
    List UInt64 :=
  [block.r0, block.r1, block.r2, block.r3, block.r4, block.r5, block.r6,
    block.r7].flatMap Row.toList

/-- The block of the first 128 words of a list, zeros past its end. -/
def ofList
    (words : List UInt64) :
    Block :=
  let row := fun index => Row.ofList (words.drop (16 * index))
  ⟨row 0, row 1, row 2, row 3, row 4, row 5, row 6, row 7⟩

/-- The block of 1024 bytes. -/
def ofBytes
    (bytes : Bytes) :
    Block :=
  ofList (Blake2b.words bytes 128)

/-- The 1024 bytes of a block. -/
def toBytes
    (block : Block) :
    Bytes :=
  block.toList.flatMap (Blake2b.lowBytes · 8)

/-- The wordwise exclusive or. -/
def xor
    (left right : Block) :
    Block :=
  { r0 := left.r0.xor right.r0
    r1 := left.r1.xor right.r1
    r2 := left.r2.xor right.r2
    r3 := left.r3.xor right.r3
    r4 := left.r4.xor right.r4
    r5 := left.r5.xor right.r5
    r6 := left.r6.xor right.r6
    r7 := left.r7.xor right.r7 }

/-- Stirs every row. -/
def permuteRows
    (block : Block) :
    Block :=
  { r0 := block.r0.permute
    r1 := block.r1.permute
    r2 := block.r2.permute
    r3 := block.r3.permute
    r4 := block.r4.permute
    r5 := block.r5.permute
    r6 := block.r6.permute
    r7 := block.r7.permute }

/-- The block whose rows are the columns of another one. -/
def transpose
    (block : Block) :
    Block :=
  { r0 := ⟨block.r0.w0, block.r0.w1, block.r1.w0, block.r1.w1,
      block.r2.w0, block.r2.w1, block.r3.w0, block.r3.w1,
      block.r4.w0, block.r4.w1, block.r5.w0, block.r5.w1,
      block.r6.w0, block.r6.w1, block.r7.w0, block.r7.w1⟩
    r1 := ⟨block.r0.w2, block.r0.w3, block.r1.w2, block.r1.w3,
      block.r2.w2, block.r2.w3, block.r3.w2, block.r3.w3,
      block.r4.w2, block.r4.w3, block.r5.w2, block.r5.w3,
      block.r6.w2, block.r6.w3, block.r7.w2, block.r7.w3⟩
    r2 := ⟨block.r0.w4, block.r0.w5, block.r1.w4, block.r1.w5,
      block.r2.w4, block.r2.w5, block.r3.w4, block.r3.w5,
      block.r4.w4, block.r4.w5, block.r5.w4, block.r5.w5,
      block.r6.w4, block.r6.w5, block.r7.w4, block.r7.w5⟩
    r3 := ⟨block.r0.w6, block.r0.w7, block.r1.w6, block.r1.w7,
      block.r2.w6, block.r2.w7, block.r3.w6, block.r3.w7,
      block.r4.w6, block.r4.w7, block.r5.w6, block.r5.w7,
      block.r6.w6, block.r6.w7, block.r7.w6, block.r7.w7⟩
    r4 := ⟨block.r0.w8, block.r0.w9, block.r1.w8, block.r1.w9,
      block.r2.w8, block.r2.w9, block.r3.w8, block.r3.w9,
      block.r4.w8, block.r4.w9, block.r5.w8, block.r5.w9,
      block.r6.w8, block.r6.w9, block.r7.w8, block.r7.w9⟩
    r5 := ⟨block.r0.w10, block.r0.w11, block.r1.w10, block.r1.w11,
      block.r2.w10, block.r2.w11, block.r3.w10, block.r3.w11,
      block.r4.w10, block.r4.w11, block.r5.w10, block.r5.w11,
      block.r6.w10, block.r6.w11, block.r7.w10, block.r7.w11⟩
    r6 := ⟨block.r0.w12, block.r0.w13, block.r1.w12, block.r1.w13,
      block.r2.w12, block.r2.w13, block.r3.w12, block.r3.w13,
      block.r4.w12, block.r4.w13, block.r5.w12, block.r5.w13,
      block.r6.w12, block.r6.w13, block.r7.w12, block.r7.w13⟩
    r7 := ⟨block.r0.w14, block.r0.w15, block.r1.w14, block.r1.w15,
      block.r2.w14, block.r2.w15, block.r3.w14, block.r3.w15,
      block.r4.w14, block.r4.w15, block.r5.w14, block.r5.w15,
      block.r6.w14, block.r6.w15, block.r7.w14, block.r7.w15⟩ }

/-- Mixes two blocks into one. -/
def mix
    (left right : Block) :
    Block :=
  let both := left.xor right
  both.xor both.permuteRows.transpose.permuteRows.transpose

end Block

/-- How the memory is laid out and how often it is filled. -/
structure Cost where
  lanes : Nat
  passes : Nat
  /-- The number of blocks in a quarter of a lane. -/
  segment : Nat
  deriving DecidableEq, Repr

namespace Cost

/-- The number of blocks in a lane. -/
def lane
    (cost : Cost) :
    Nat :=
  4 * cost.segment

/-- The number of blocks of the memory. -/
def blocks
    (cost : Cost) :
    Nat :=
  cost.lanes * cost.lane

end Cost

/-- A number as four bytes, the lowest one first. -/
def littleEndian
    (number : Nat) :
    Bytes :=
  Blake2b.lowBytes number.toUInt64 4

/-- The chain of hashes that a long hash is made of: all but the last give
their first half. -/
def hashChain
    (previous : Bytes) :
    (length : Nat) → Bytes
  | length =>
    if 64 < length then
      let next := Blake2b.hash 64 previous
      next.take 32 ++ hashChain next (length - 32)
    else
      Blake2b.hash length previous

/-- A hash of any length. -/
def longHash
    (length : Nat)
    (bytes : Bytes) :
    Bytes :=
  hashChain (littleEndian length ++ bytes) length

/-- The hash of everything that the key depends on. -/
def seed
    (cost : Cost)
    (length : Nat)
    (passphrase salt : Bytes) :
    Bytes :=
  Blake2b.hash 64 <|
    [cost.lanes, length, cost.blocks, cost.passes, 0x13, 2].flatMap
        littleEndian ++
      littleEndian passphrase.length ++ passphrase ++
      littleEndian salt.length ++ salt ++
      littleEndian 0 ++ littleEndian 0

/-- A place in the course of filling the memory. -/
structure Position where
  pass : Nat
  slice : Nat
  lane : Nat
  deriving DecidableEq, Repr

/-- Whether the blocks of a segment are picked without a look at the memory. -/
def Position.isBlind
    (position : Position) :
    Bool :=
  position.pass == 0 && position.slice < 2

/-- The words that pick blocks for 128 places of a blind segment. -/
def addresses
    (cost : Cost)
    (position : Position)
    (counter : Nat) :
    Array UInt64 :=
  let input := Block.ofList <| List.map Nat.toUInt64
    [position.pass, position.lane, position.slice, cost.blocks,
      cost.passes, 2, counter]
  (Block.mix .zero (Block.mix .zero input)).toList.toArray

/-- The place in the memory of the block that a word picks for the block at
`index` of a segment. -/
def pick
    (cost : Cost)
    (position : Position)
    (index : Nat)
    (word : UInt64) :
    Nat :=
  let first := position.pass == 0
  let lane :=
    if first && position.slice == 0 then
      position.lane
    else
      (word >>> 32).toNat % cost.lanes
  let finished :=
    if first then
      position.slice * cost.segment
    else
      cost.lane - cost.segment
  let reachable :=
    if lane = position.lane then
      finished + index - 1
    else if index = 0 then
      finished - 1
    else
      finished
  let start :=
    if first || position.slice == 3 then
      0
    else
      (position.slice + 1) * cost.segment
  let spread := (word &&& 0xffffffff).toNat
  let nearness := reachable * (spread * spread / Nat.pow 2 32) / Nat.pow 2 32
  lane * cost.lane + (start + (reachable - 1 - nearness)) % cost.lane

/-- Fills `count` blocks of a segment from `index` on.  The words `picks` are
those of the current 128 places of a blind segment. -/
def fillSegment
    (cost : Cost)
    (position : Position)
    (memory : Array Block)
    (picks : Array UInt64)
    (index : Nat) :
    (count : Nat) → Array Block
  | 0 => memory
  | count + 1 =>
    let column := position.slice * cost.segment + index
    let base := position.lane * cost.lane
    let place := base + column
    let before := base + (column + cost.lane - 1) % cost.lane
    let previous := memory.getD before .zero
    let picks :=
      if position.isBlind && (index % 128 == 0 || picks.isEmpty) then
        addresses cost position (index / 128 + 1)
      else
        picks
    let word :=
      if position.isBlind then
        picks.getD (index % 128) 0
      else
        previous.r0.w0
    let other := memory.getD (pick cost position index word) .zero
    let mixed := Block.mix previous other
    let fresh :=
      if position.pass = 0 then
        mixed
      else
        mixed.xor (memory.getD place .zero)
    fillSegment cost position (memory.setIfInBounds place fresh) picks
      (index + 1) count

/-- The segments of one pass in the order in which they are filled. -/
def segments
    (cost : Cost)
    (pass : Nat) :
    List Position :=
  (List.range 4).flatMap fun slice =>
    (List.range cost.lanes).map fun lane => { pass, slice, lane }

/-- Fills one segment; the first two blocks of every lane are there from the
start. -/
def fill
    (cost : Cost)
    (memory : Array Block)
    (position : Position) :
    Array Block :=
  let start := if position.pass = 0 ∧ position.slice = 0 then 2 else 0
  fillSegment cost position memory #[] start (cost.segment - start)

/-- The memory before it is filled. -/
def initialMemory
    (cost : Cost)
    (seed : Bytes) :
    Array Block :=
  (List.range cost.lanes).foldl
    (fun memory lane =>
      [0, 1].foldl
        (fun memory column =>
          memory.setIfInBounds (lane * cost.lane + column) <|
            Block.ofBytes <| longHash 1024 <|
              seed ++ littleEndian column ++ littleEndian lane)
        memory)
    (Array.replicate cost.blocks .zero)

/-- The exclusive or of the last blocks of all lanes. -/
def lastBlock
    (cost : Cost)
    (memory : Array Block) :
    Block :=
  (List.range cost.lanes).foldl
    (fun sum lane =>
      sum.xor (memory.getD ((lane + 1) * cost.lane - 1) .zero))
    .zero

/-- Stretches a passphrase into `length` bytes. -/
def stretch
    (cost : Cost)
    (length : Nat)
    (passphrase salt : Bytes) :
    Bytes :=
  let start := initialMemory cost (seed cost length passphrase salt)
  let positions := (List.range cost.passes).flatMap (segments cost)
  let filled := positions.foldl (fill cost) start
  longHash length (lastBlock cost filled).toBytes

end Strata.Argon2
