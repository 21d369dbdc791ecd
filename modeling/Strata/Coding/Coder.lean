import Strata.Coding.Erasure
import Strata.Coding.Replica
import Strata.Coding.Xor
import Strata.Config

/-!
# Coders

A coder turns a block into one fragment for each device and back.  Copies and
pads lie where the block lies and need no books; the erasure coder keeps its
own, and names its fragment files by their device.
-/

namespace Strata

/-- Where the fragments of a block lie in every device file. -/
structure Placement where
  offset : Nat
  /-- The bytes to move on each device. -/
  length : Nat
  /-- The length of the block, where it is known before decoding. -/
  block : Option Nat
  deriving DecidableEq, Repr, Inhabited

/-- The fragments of a block and where they go. -/
structure FragmentSet where
  fragments : List Bytes
  placement : Placement
  deriving DecidableEq, Repr, Inhabited

/-- The coder of the device stage. -/
inductive Coder where
  | replicate
  | xor
  | erasure (coder : ErasureCoder)
  deriving Repr, Inhabited

namespace Coder

/-- The coder that a configuration asks for. -/
def ofConfig
    (config : DeviceConfig) :
    Except Error Coder :=
  match config.mode with
  | .replicate => .ok .replicate
  | .xor => .ok .xor
  | .erasure =>
    (ErasureCoder.ofShape config.erasure.data config.erasure.parity).map
      .erasure

/-- The mode that asks for this coder. -/
def mode :
    Coder → CoderMode
  | .replicate => .replicate
  | .xor => .xor
  | .erasure _ => .erasure

/-- The number of random pads that a block needs. -/
def padCount
    (devices : Nat) :
    Coder → Nat
  | .xor => devices - 1
  | _ => 0

/-- The placement of an extent. -/
def placementOf
    (extent : Extent) :
    Placement :=
  { offset := extent.start
    length := extent.fragment
    block := some extent.block }

/-- Splits the block at an offset into a fragment for each device.  The pads
are used by the coder that needs them. -/
def encode
    (path : Path)
    (block : Bytes)
    (offset devices : Nat)
    (pads : List Bytes) :
    Action Coder FragmentSet :=
  let placement : Placement :=
    { offset, length := block.length, block := some block.length }
  Action.ofRun fun coder =>
    match coder with
    | .replicate =>
      (.ok ⟨Replica.encode block devices, placement⟩, .replicate)
    | .xor =>
      ((Xor.encode block devices pads).map (⟨·, placement⟩), .xor)
    | .erasure coder =>
      let (answer, coder) :=
        (ErasureCoder.encode path block offset).execute coder
      (answer.map fun (fragments, extent) =>
          ⟨fragments, placementOf extent⟩,
        .erasure coder)

/-- Where to read `length` bytes at an offset; nothing is stored there if
there is no placement. -/
def locate
    (coder : Coder)
    (path : Path)
    (offset length : Nat) :
    Except Error (Option Placement) :=
  match coder with
  | .erasure coder =>
    (coder.locate path offset).map (·.map placementOf)
  | _ => .ok (some { offset, length, block := none })

/-- The block of the fragments read at a placement. -/
def decode
    (coder : Coder)
    (fragments : List Bytes)
    (placement : Placement) :
    Except Error Bytes :=
  match coder with
  | .replicate => Replica.decode fragments
  | .xor => Xor.decode fragments
  | .erasure coder =>
    coder.decode (fragments.map some)
      (placement.block.getD placement.length)

/-- The path of the file that stores a path on a device. -/
def devicePath
    (coder : Coder)
    (path : Path)
    (device : Nat) :
    Path :=
  match coder with
  | .erasure coder => path.withSuffix (coder.suffix device)
  | _ => path

/-- The logical name of an entry that the first device lists, unless it is to
be hidden. -/
def listedName?
    (coder : Coder)
    (name : String)
    (isDirectory : Bool) :
    Option String :=
  match coder with
  | .erasure coder =>
    if isDirectory then some name else coder.logicalName? name
  | _ => some name

/-- The logical size, where the coder keeps it. -/
def trackedSize?
    (coder : Coder)
    (path : Path) :
    Option Nat :=
  match coder with
  | .erasure coder => some (coder.trackedSize path)
  | _ => none

/-- The length that the device files are to be cut to, if they are. -/
def truncate
    (coder : Coder)
    (path : Path)
    (size : Nat) :
    Option Nat × Coder :=
  match coder with
  | .erasure coder =>
    let (length, coder) := coder.truncate path size
    (length, .erasure coder)
  | other => (some size, other)

/-- Applies a change of the books, where there are any. -/
def update
    (change : ErasureCoder → ErasureCoder) :
    Coder → Coder
  | .erasure coder => .erasure (change coder)
  | other => other

/-- A file was made, or emptied by making it again. -/
def onCreate
    (path : Path) :
    Coder → Coder :=
  update (·.reset path)

/-- A name was taken away. -/
def onUnlink
    (path : Path) :
    Coder → Coder :=
  update (·.forget path)

/-- A file was given another name. -/
def onRename
    (source target : Path) :
    Coder → Coder :=
  update (·.rename source target)

/-- A directory was given another name. -/
def onRenameDirectory
    (source target : Path) :
    Coder → Coder :=
  update (·.renameDirectory source target)

/-- A file was given one more name. -/
def onLink
    (existing added : Path) :
    Coder → Coder :=
  update (·.link existing added)

end Coder

end Strata
