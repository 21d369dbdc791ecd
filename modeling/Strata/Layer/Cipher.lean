import Strata.Frame
import Strata.Latency
import Strata.Layer

/-!
# The cipher stage

Every block that passes is framed on the way down and taken out of its frame
on the way up.  Requests come one block at a time and start on a block
boundary, which the aligning stage above sees to.  Sizes and cuts are turned
from the logical view into the stored one and back.
-/

namespace Strata.Layer.Cipher

variable {σ : Type}
  (framer : Framer)
  (lower : Layer σ)
  (path : Path)

/-- Reads the frame of a block and takes the block out of it. -/
def readBlock
    (handle : FileHandle)
    (offset length : Nat) :
    Action σ Bytes := do
  let frame ← lower.read path handle (framer.storedOffset offset)
    (framer.storedLength length)
  if frame.isEmpty then
    return []
  else
    let block ← Action.ofExcept (framer.decode offset frame)
    return block.take length

/-- Frames a block and writes the frame, which has to be taken as a whole. -/
def writeBlock
    (draw : Action σ Bytes)
    (handle : FileHandle)
    (offset : Nat)
    (block : Bytes) :
    Action σ Nat := do
  let frame ← framer.frameWith draw block
  let written ←
    lower.write path handle (framer.storedOffset offset) frame
  if written < frame.length then
    throw (.shortTransfer frame.length written)
  else
    return block.length

/-- The logical size of a file of the given stored size. -/
def sizeOf
    (handle : Option FileHandle)
    (stored : Nat) :
    Action σ Nat :=
  framer.logicalSize
    (fun offset length =>
      lower.withHandle path handle .readOnly fun opened =>
        lower.read path opened offset length)
    stored

/-- The attributes of a path, with the logical size if it is a file. -/
def attributesOf
    (handle : Option FileHandle) :
    Action σ Attributes := do
  let attributes ← lower.attributes path handle
  if attributes.isFile then
    let size ← sizeOf framer lower path handle attributes.size
    return { attributes with size }
  else
    return attributes

end Cipher

/-- The cipher stage over a lower layer.  Nonces come from `draw`, and reads
and writes are timed by `meter`. -/
def framed
    {σ : Type}
    (framer : Framer)
    (draw : Action σ Bytes)
    (meter : Meter σ)
    (lower : Layer σ) :
    Layer σ :=
  { lower with
    names := "cipher" :: lower.names
    read := fun path handle offset length =>
      meter.timed "read" <|
        Cipher.readBlock framer lower path handle offset length
    write := fun path handle offset block =>
      meter.timed "write" <|
        Cipher.writeBlock framer lower path draw handle offset block
    truncate := fun path handle size =>
      lower.truncate path handle (framer.storedSize size)
    logicalSize := fun path handle stored =>
      Cipher.sizeOf framer lower path handle stored
    fileSize := fun path handle => do
      let stored ← lower.fileSize path handle
      Cipher.sizeOf framer lower path handle stored
    attributes := fun path handle =>
      Cipher.attributesOf framer lower path handle }

end Strata.Layer
