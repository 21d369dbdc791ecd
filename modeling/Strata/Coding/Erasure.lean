import Strata.Coding.Extents
import Strata.Coding.ReedSolomon
import Strata.Path

/-!
# Erasure coding

A block is cut into as many pieces as there are data shards, the last ones
filled up with zeros, and the Reed–Solomon code adds the parity shards.  The
coder also keeps the books: which file a path names, and where the fragments
of each of its blocks lie.
-/

namespace Strata

/-- The code together with its books. -/
structure ErasureCoder where
  code : ReedSolomon
  identities : Identities := {}
  extents : Extents := []
  deriving Repr

namespace ErasureCoder

/-- The error that a fault of the code is reported as. -/
def reported
    {α : Type}
    (result : Except ReedSolomon.Fault α) :
    Except Error α :=
  result.mapError fun fault => .erasure fault.name

/-- The coder for the given numbers of shards, with empty books. -/
def ofShape
    (data parity : Nat) :
    Except Error ErasureCoder :=
  if data = 0 ∨ parity = 0 then
    .error (.config
      "erasure coding needs at least one data and one parity shard")
  else do
    let code ← reported (ReedSolomon.ofShape data parity)
    return { code }

/-- The number of shards. -/
def total
    (coder : ErasureCoder) :
    Nat :=
  coder.code.total

/-- The length of the fragments of a block. -/
def fragmentLength
    (coder : ErasureCoder)
    (length : Nat) :
    Nat :=
  (length + coder.code.data - 1) / coder.code.data

/-- The data shards of a block. -/
def dataShards
    (coder : ErasureCoder)
    (block : Bytes) :
    List Bytes :=
  let length := coder.fragmentLength block.length
  (List.range coder.code.data).map fun index =>
    (block.slice (index * length) length).resize length

/-- All fragments of a block. -/
def fragments
    (coder : ErasureCoder)
    (block : Bytes) :
    Except Error (List Bytes) :=
  reported (coder.code.encode (coder.dataShards block))

/-- The block of the given length whose fragments are given, those that are
missing left out. -/
def decode
    (coder : ErasureCoder)
    (shards : List (Option Bytes))
    (length : Nat) :
    Except Error Bytes :=
  if shards.length ≠ coder.total then
    .error (.erasure
      ("expected " ++ toString coder.total ++ " fragments, got " ++
        toString shards.length))
  else do
    let data ← reported (coder.code.reconstruct shards)
    return data.flatten.take length

/-- A number in decimal, with zeros before it up to five digits. -/
def fiveDigits
    (number : Nat) :
    String :=
  let digits := Nat.toDigits 10 number
  String.ofList (List.replicate (5 - digits.length) '0' ++ digits)

/-- What the name of the fragment file on a device ends in. -/
def suffix
    (coder : ErasureCoder)
    (device : Nat) :
    String :=
  if device < coder.code.data then
    "-" ++ fiveDigits device ++ ".data"
  else
    "-" ++ fiveDigits (device - coder.code.data) ++ ".parity"

/-- The text before a given end, if it has that end. -/
def beforeEnd?
    (text ending : String) :
    Option String :=
  if ending.toList.isSuffixOf text.toList then
    some (String.ofList
      (text.toList.take (text.toList.length - ending.toList.length)))
  else
    none

/-- The logical name of a fragment file on the first device. -/
def logicalName?
    (coder : ErasureCoder)
    (name : String) :
    Option String :=
  beforeEnd? name (coder.suffix 0)

/-! ## The books -/

/-- The identity of a path, if it has one. -/
def identity?
    (coder : ErasureCoder)
    (path : Path) :
    Option FileId :=
  coder.identities.lookup path.render

/-- Splits a block into fragments and records where they go.  The path has an
identity from then on even if there is no place for the block. -/
def encode
    (path : Path)
    (block : Bytes)
    (offset : Nat) :
    Action ErasureCoder (List Bytes × Extent) :=
  Action.ofRun fun coder =>
    match coder.fragments block with
    | .error error => (.error error, coder)
    | .ok fragments =>
      let (id, identities) := coder.identities.identify path.render
      let length := coder.fragmentLength block.length
      match coder.extents.place path.render id offset block.length length with
      | .error error => (.error error, { coder with identities })
      | .ok (extent, extents) =>
        (.ok (fragments, extent), { coder with identities, extents })

/-- The extent of the block at an offset; there is none at or past the end of
the file. -/
def locate
    (coder : ErasureCoder)
    (path : Path)
    (offset : Nat) :
    Except Error (Option Extent) :=
  match coder.identity? path with
  | none => .ok none
  | some id =>
    match coder.extents.lookup id offset with
    | some extent => .ok (some extent)
    | none =>
      if coder.extents.size id ≤ offset then
        .ok none
      else
        .error (.missingOffset path.render offset)

/-- The logical size of a file. -/
def trackedSize
    (coder : ErasureCoder)
    (path : Path) :
    Nat :=
  (coder.identity? path).elim 0 coder.extents.size

/-- Cuts a file, and gives the length that its fragment files can be cut to,
if they can. -/
def truncate
    (coder : ErasureCoder)
    (path : Path)
    (size : Nat) :
    Option Nat × ErasureCoder :=
  let (id, identities) := coder.identities.identify path.render
  let (length, extents) := coder.extents.truncate id size
  (length, { coder with identities, extents })

/-- Empties a file under all its names. -/
def reset
    (coder : ErasureCoder)
    (path : Path) :
    ErasureCoder :=
  match coder.identity? path with
  | none => coder
  | some id => { coder with extents := (coder.extents.truncate id 0).2 }

/-- Drops what is recorded for a file that has lost its last name. -/
def dropOrphan
    (coder : ErasureCoder) :
    Option FileId → ErasureCoder
  | none => coder
  | some id => { coder with extents := coder.extents.remove id }

/-- Takes a name away. -/
def forget
    (coder : ErasureCoder)
    (path : Path) :
    ErasureCoder :=
  let (orphan, identities) := coder.identities.forget path.render
  { coder with identities }.dropOrphan orphan

/-- Gives a file another name, in place of what had that name. -/
def rename
    (coder : ErasureCoder)
    (source target : Path) :
    ErasureCoder :=
  let (orphan, identities) :=
    coder.identities.rename source.render target.render
  { coder with identities }.dropOrphan orphan

/-- Gives another name to a directory of files. -/
def renameDirectory
    (coder : ErasureCoder)
    (source target : Path) :
    ErasureCoder :=
  { coder with
    identities := coder.identities.renameTree source.render target.render }

/-- Lets a path name the same file as another one. -/
def link
    (coder : ErasureCoder)
    (existing added : Path) :
    ErasureCoder :=
  { coder with
    identities :=
      (coder.identities.addName existing.render added.render).2 }

end ErasureCoder

end Strata
