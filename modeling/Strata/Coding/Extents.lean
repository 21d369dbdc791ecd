import Strata.Coding.Identities
import Strata.Error
import Strata.Table

/-!
# Extents of fragments

The fragments of a block are shorter than the block, so the offset of a block
says nothing about where its fragments lie.  For each file every block that
was written has an extent, found by the block's offset, and for every end of a
block it is known where the fragments of the next block go.  That is how a
file grows: a block that starts where another one ended continues its
fragments.
-/

namespace Strata

/-- Where the fragments of one block lie in every fragment file. -/
structure Extent where
  start : Nat
  /-- The length of each fragment. -/
  fragment : Nat
  /-- The length of the block that they decode to. -/
  block : Nat
  deriving DecidableEq, Repr, Inhabited

/-- What is recorded for one file. -/
structure FileExtents where
  /-- The extent of each block, by its offset. -/
  blocks : Table Nat Extent := []
  /-- Where the fragments behind a block go, by the end of the block. -/
  nextStarts : Table Nat Nat := []
  /-- The largest end of a block, unless the file was cut. -/
  size : Nat := 0
  deriving DecidableEq, Repr, Inhabited

namespace FileExtents

/-- Where the fragments of a block at an offset go: at the start of the file,
where they were, or behind the block that ends there. -/
def startFor?
    (extents : FileExtents)
    (offset : Nat) :
    Option Nat :=
  if offset = 0 then
    some 0
  else
    match extents.blocks.find? offset with
    | some extent => some extent.start
    | none => extents.nextStarts.find? offset

/-- Records a block whose fragments start at a known place. -/
def record
    (extents : FileExtents)
    (offset : Nat)
    (extent : Extent) :
    FileExtents :=
  { blocks := extents.blocks.set offset extent
    nextStarts := extents.nextStarts.set (offset + extent.block)
      (extent.start + extent.fragment)
    size := max extents.size (offset + extent.block) }

/-- The extents of the blocks that start at or past an offset. -/
def startsFrom
    (extents : FileExtents)
    (offset : Nat) :
    List Nat :=
  (extents.blocks.keep fun start => offset ≤ start).map (·.2.start)

/-- What is left when the blocks that start at or past the new size go. -/
def cut
    (extents : FileExtents)
    (size : Nat) :
    FileExtents :=
  { blocks := extents.blocks.keep (· < size)
    nextStarts := extents.nextStarts.keep (· ≤ size)
    size }

/-- The length that the fragment files can be cut to, if a block goes or the
file is emptied. -/
def cutLength?
    (extents : FileExtents)
    (size : Nat) :
    Option Nat :=
  (if size = 0 then 0 :: extents.startsFrom size
    else extents.startsFrom size).min?

end FileExtents

/-- What is recorded for all files. -/
abbrev Extents := Table FileId FileExtents

namespace Extents

/-- What is recorded for one file; nothing is recorded for a new file. -/
def file
    (extents : Extents)
    (id : FileId) :
    FileExtents :=
  (extents.find? id).getD {}

/-- Decides where the fragments of a block go and records it.  A block that
neither was written before nor continues another one has no place. -/
def place
    (extents : Extents)
    (path : String)
    (id : FileId)
    (offset block fragment : Nat) :
    Except Error (Extent × Extents) :=
  let file := extents.file id
  match file.startFor? offset with
  | none => .error (.missingOffset path offset)
  | some start =>
    let extent : Extent := { start, fragment, block }
    .ok (extent, extents.set id (file.record offset extent))

/-- The extent of the block at an offset. -/
def lookup
    (extents : Extents)
    (id : FileId)
    (offset : Nat) :
    Option Extent :=
  (extents.file id).blocks.find? offset

/-- The logical size of a file. -/
def size
    (extents : Extents)
    (id : FileId) :
    Nat :=
  (extents.file id).size

/-- Sets the size of a file and drops the blocks at or past it; gives the
length that the fragment files can be cut to, if they can. -/
def truncate
    (extents : Extents)
    (id : FileId)
    (size : Nat) :
    Option Nat × Extents :=
  let file := extents.file id
  (file.cutLength? size, extents.set id (file.cut size))

/-- Drops everything that is recorded for a file. -/
def remove
    (extents : Extents)
    (id : FileId) :
    Extents :=
  extents.erase id

end Extents

end Strata
