import Strata.BlockSize
import Strata.Layer

/-!
# Block alignment

The aligning stage turns requests for arbitrary ranges into requests that
start on a block boundary and stay within one block.  A block that a request
covers completely is passed on as it is.  A block that is covered in part is
read, changed and written back, unless the part reaches the end of the file.

A write whose first block is covered in part may start a new block only at the
very end of the file; past it, where it would leave a hole, it is refused
before a byte is moved.  A write that starts with a whole block passes it on
without a look at the end of the file.
-/

namespace Strata.Layer.Align

variable {σ : Type}
  (size : BlockSize)
  (lower : Layer σ)
  (path : Path)
  (handle : FileHandle)

/--
How many bytes to ask for so that `length` bytes from `offset` are read and
the layer below sees all that it stores of the block.
-/
def requestLength
    (offset length : Nat) :
    Action σ Nat := do
  let needed := size.inside offset + length
  if needed = size.bytes then
    return size.bytes
  else
    let stored ← lower.fileSize path (some handle)
    return max needed (min (stored - size.start offset) size.bytes)

/-- Reads `length` bytes that lie inside one block. -/
def readPiece
    (offset length : Nat) :
    Action σ Bytes := do
  let request ← requestLength size lower path handle offset length
  let block ← lower.read path handle (size.start offset) request
  return block.slice (size.inside offset) length

/--
Reads the `wanted` bytes from `offset`, block by block, and stops at the first
block that does not deliver.  The pieces read before are `done`, the last one
first.
-/
def readFrom
    (offset wanted : Nat)
    (done : List Bytes) :
    Action σ Bytes :=
  if wanted = 0 then
    return done.reverse.flatten
  else do
    let length := min (size.room offset) wanted
    let piece ← readPiece size lower path handle offset length
    if piece.length < length then
      return (piece :: done).reverse.flatten
    else
      readFrom (offset + length) (wanted - length) (piece :: done)
termination_by wanted
decreasing_by
  have := size.room_pos offset
  omega

/--
Reads `wanted` bytes from `offset` on into a buffer, behind the `done` bytes
that were put there before, and answers how many are there then.  A block goes
to the front of `scratch`, which keeps what it holds behind that from earlier
blocks, and what was asked for of the block is copied from there.
-/
def copyFrom
    (offset wanted done : Nat)
    (scratch buffer : Bytes) :
    Action σ (Nat × Bytes) :=
  if wanted = 0 then
    return (done, buffer)
  else do
    let length := min (size.room offset) wanted
    let request ← requestLength size lower path handle offset length
    let block ← lower.read path handle (size.start offset) request
    let scratch := scratch.splice 0 block
    if block.length ≤ size.inside offset then
      return (done, buffer)
    else
      let available := min (block.length - size.inside offset) length
      let buffer := buffer.splice done
        (scratch.slice (size.inside offset) available)
      if available < length then
        return (done + available, buffer)
      else
        copyFrom (offset + length) (wanted - length) (done + available) scratch
          buffer
termination_by wanted
decreasing_by
  have := size.room_pos offset
  omega

/-- Reads as many bytes as a buffer has room for, through a scratch of one
block, and answers how many were read with the buffer as it is then. -/
def readInto
    (offset : Nat)
    (buffer : Bytes) :
    Action σ (Nat × Bytes) :=
  copyFrom size lower path handle offset buffer.length 0
    (Bytes.zeros size.bytes) buffer

/--
Puts `data` into the stored block that starts at `block` and writes the block
back.  Answers how many bytes of `data` the layer below took.
-/
def rewriteBlock
    (block inside stored : Nat)
    (data : Bytes) :
    Action σ Nat := do
  let present ← lower.read path handle block (min stored size.bytes)
  let changed := Bytes.splice present inside data
  let written ← lower.write path handle block changed
  if written < changed.length then
    return min (written - inside) data.length
  else
    return data.length

/-- Writes bytes that lie inside one block. -/
def writePiece
    (offset : Nat)
    (data : Bytes) :
    Action σ Nat := do
  let inside := size.inside offset
  let block := size.start offset
  if inside = 0 ∧ data.length = size.bytes then
    lower.write path handle block data
  else
    let fileSize ← lower.fileSize path (some handle)
    if fileSize ≤ block then
      if fileSize < block ∨ 0 < inside then
        throw (.alignment path.render block inside fileSize)
      else
        lower.write path handle block data
    else if inside = 0 ∧ fileSize - block ≤ data.length then
      lower.write path handle block data
    else
      rewriteBlock size lower path handle block inside (fileSize - block) data

/--
Writes `data` at `offset` after the `done` bytes already written, block by
block, and stops at the first block that is not taken completely.
-/
def writeFrom
    (offset : Nat)
    (data : Bytes)
    (done : Nat) :
    Action σ Nat :=
  if _ : data = [] then
    return done
  else do
    let piece := data.take (size.room offset)
    let written ← writePiece size lower path handle offset piece
    if written < piece.length then
      return done + written
    else
      writeFrom (offset + piece.length) (data.drop piece.length)
        (done + piece.length)
termination_by data.length
decreasing_by
  have := size.room_pos offset
  have : data.length ≠ 0 := fun none =>
    ‹¬data = []› (List.length_eq_zero_iff.mp none)
  simp only [List.length_drop, List.length_take]
  omega

/-- The most zeros that are written at once when a file grows. -/
def fillChunk : Nat :=
  65536

/-- Writes zeros from `offset` up to `target`. -/
def fillTo
    (target offset : Nat) :
    Action σ Unit :=
  if offset < target then do
    let length := min (target - offset) fillChunk
    let written ←
      writeFrom size lower path handle offset (Bytes.zeros length) 0
    if written < length then
      throw (.shortTransfer length written)
    else
      fillTo target (offset + length)
  else
    return
termination_by target - offset
decreasing_by
  simp only [fillChunk]
  omega

/-- The bytes of the last block that a cut at `target` keeps, which have to
be written anew because the layer below cuts whole frames. -/
def keptPart
    (target : Nat) :
    Action σ Bytes := do
  let length := size.inside target
  let kept ←
    readFrom size lower path handle (size.start target) length []
  if kept.length < length then
    throw (.shortTransfer length kept.length)
  else
    return kept

/-- Changes the length of an open file. -/
def truncateOpen
    (target : Nat) :
    Action σ Unit := do
  let current ← lower.fileSize path (some handle)
  let mut kept := []
  if current < target then
    fillTo size lower path handle target current
  else if target < current ∧ 0 < size.inside target then
    kept ← keptPart size lower path handle target
  lower.truncate path (some handle) target
  if !kept.isEmpty then
    let written ← lower.write path handle (size.start target) kept
    if written < kept.length then
      throw (.shortTransfer kept.length written)

end Align

/--
The aligning stage over a lower layer.  A file is always opened for reading
and writing, because changing part of a block reads it back.
-/
def aligned
    {σ : Type}
    (size : BlockSize)
    (lower : Layer σ) :
    Layer σ :=
  { lower with
    names := "align" :: lower.names
    openFile := fun path _ => lower.openFile path .readWrite
    read := fun path handle offset length =>
      Align.readFrom size lower path handle offset length []
    write := fun path handle offset data =>
      Align.writeFrom size lower path handle offset data 0
    truncate := fun path handle target =>
      lower.withHandle path handle .readWrite fun opened =>
        Align.truncateOpen size lower path opened target }

end Strata.Layer
