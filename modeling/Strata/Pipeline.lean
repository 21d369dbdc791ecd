import Strata.Config.Validity
import Strata.Layer.Align
import Strata.Layer.Cipher
import Strata.Layer.Devices
import Strata.Workers

/-!
# Pipelines

A pipeline is assembled once from a configuration: the stages are put on one
another from the bottom up, and every request enters at the top.  Requests
name their paths as texts; a text that is no path is refused before any stage
sees it.
-/

namespace Strata

/-- What a pipeline works on. -/
abbrev Pipeline.State
    (κ : Type) :=
  Session (Fleet κ)

/-- A stack of stages that was assembled from a configuration. -/
structure Pipeline
    (κ : Type) where
  config : Config
  workers : Workers
  devices : Devices κ
  top : Layer (Pipeline.State κ)

/-- The error of key material that asks for a passphrase where nobody can be
asked. -/
def Pipeline.noPrompt
    (_ : String) :
    Except Error String :=
  .error (.config
    "key material asks for a passphrase prompt; assemble with a prompt")

namespace Pipeline

variable {κ α : Type}

/-! ## Assembly -/

/-- A pipeline under construction. -/
structure Draft
    (κ : Type) where
  below : Option (Layer (State κ)) := none
  devices : Option (Devices κ × Coder) := none
  registry : Registry := []
  /-- Whether the key was already resolved. -/
  keyed : Bool := false

/-- Makes the directories of the devices from a number on, and gives their
absolute paths. -/
def openRoots
    (backend : Backend κ)
    (device : Nat) :
    List String → Action κ (List String)
  | [] => return []
  | path :: rest => do
    let root ← Action.ofRun fun state =>
      let (answer, state) := backend.openRoot path state
      (answer.mapError (.device device), state)
    let roots ← openRoots backend (device + 1) rest
    return root :: roots

/-- The stage that the next one is put on. -/
def Draft.lower
    (draft : Draft κ)
    (kind : StageKind) :
    Except Error (Layer (State κ)) :=
  match draft.below with
  | some lower => .ok lower
  | none =>
    .error (.config (kind.title ++ " layer has no layer below it"))

/-- The block size of a configuration. -/
def blockSize
    (config : Config) :
    Except Error BlockSize :=
  match BlockSize.ofNat? config.blockSize with
  | some size => .ok size
  | none => .error (.config Config.Breach.blockSizeShape.message)

/-- Puts one more stage on a draft. -/
def Draft.add
    (backend : Backend κ)
    (config : Config)
    (ask : String → Except Error String)
    (draft : Draft κ) :
    StageKind → Action κ (Draft κ)
  | .devices => do
    let (recorder, registry) := draft.registry.add "devices"
    let roots ← openRoots backend 0 config.devices.paths
    let coder ← Action.ofExcept (Coder.ofConfig config.devices)
    let devices : Devices κ := { backend, roots }
    return { draft with
      below := some (Layer.ofDevices devices (Session.meter recorder))
      devices := some (devices, coder)
      registry }
  | .cipher => do
    let lower ← Action.ofExcept (draft.lower .cipher)
    if draft.keyed then
      throw (.config "cipher layer configured twice")
    let size ← Action.ofExcept (blockSize config)
    let framer ← Action.ofExcept (Framer.ofConfig size config.cipher ask)
    let (recorder, registry) := draft.registry.add "cipher"
    return { draft with
      below := some
        (lower.framed framer Session.drawNonce (Session.meter recorder))
      registry
      keyed := true }
  | .align => do
    let lower ← Action.ofExcept (draft.lower .align)
    let size ← Action.ofExcept (blockSize config)
    return { draft with below := some (lower.aligned size) }

/-- Puts stages on a draft, the first one lowest. -/
def Draft.addAll
    (backend : Backend κ)
    (config : Config)
    (ask : String → Except Error String)
    (draft : Draft κ) :
    List StageKind → Action κ (Draft κ)
  | [] => return draft
  | kind :: rest => do
    let draft ← draft.add backend config ask kind
    draft.addAll backend config ask rest

/--
Assembles a pipeline from a valid configuration, asking for a passphrase
where the key material wants one.  Gives the pipeline with the coder and the
recorders that it starts with.
-/
def assemble
    (backend : Backend κ)
    (config : Config)
    (ask : String → Except Error String) :
    Action κ (Pipeline κ × Coder × Registry) := do
  Action.ofExcept config.validate
  let workers ←
    Action.ofExcept (Workers.ofSize config.workerThreads backend.grants)
  let draft ← Draft.addAll backend config ask {} config.layers.reverse
  match draft.below, draft.devices with
  | some top, some (devices, coder) =>
    return ({ config, workers, devices, top }, coder, draft.registry)
  | _, _ => throw (.config "no layers configured")

/-! ## Requests -/

variable (pipeline : Pipeline κ)

/-- The names of the stages, the topmost first. -/
def layerNames :
    List String :=
  pipeline.top.names

/-- Runs a request at a path. -/
def atPath
    (text : String)
    (request : Path → Action (State κ) α) :
    Action (State κ) α := do
  request (← Action.ofExcept (Path.parse text))

/-- What is known about a path or an open file. -/
def attributes
    (path : String)
    (handle : Option FileHandle) :
    Action (State κ) Attributes :=
  atPath path (pipeline.top.attributes · handle)

/-- What a symbolic link says. -/
def readLink
    (path : String) :
    Action (State κ) String :=
  atPath path pipeline.top.readLink

/-- Lists a directory on every device. -/
def openDirectory
    (path : String) :
    Action (State κ) DirectoryHandle :=
  atPath path pipeline.top.openDirectory

/-- The entries of an open directory. -/
def readDirectory
    (path : String)
    (handle : DirectoryHandle) :
    Action (State κ) (List Entry) :=
  atPath path (pipeline.top.readDirectory · handle)

/-- Closes a directory. -/
def releaseDirectory
    (path : String)
    (handle : DirectoryHandle) :
    Action (State κ) Unit :=
  atPath path (pipeline.top.releaseDirectory · handle)

/-- Makes a directory. -/
def makeDirectory
    (path : String)
    (mode : Nat) :
    Action (State κ) Unit :=
  atPath path (pipeline.top.makeDirectory · mode)

/-- Takes the name of a file away. -/
def unlink
    (path : String) :
    Action (State κ) Unit :=
  atPath path pipeline.top.unlink

/-- Removes an empty directory. -/
def removeDirectory
    (path : String) :
    Action (State κ) Unit :=
  atPath path pipeline.top.removeDirectory

/-- Makes a symbolic link. -/
def symlink
    (target path : String) :
    Action (State κ) Unit :=
  atPath path (pipeline.top.symlink target)

/-- Gives an object another name. -/
def rename
    (source target : String) :
    Action (State κ) Unit :=
  atPath source fun source => atPath target (pipeline.top.rename source)

/-- Gives a file one more name. -/
def link
    (existing added : String) :
    Action (State κ) Unit :=
  atPath existing fun existing => atPath added (pipeline.top.link existing)

/-- Sets the permissions of an object. -/
def changeMode
    (path : String)
    (mode : Nat) :
    Action (State κ) Unit :=
  atPath path (pipeline.top.changeMode · mode)

/-- Sets the owner and the group of an object, where they are given. -/
def changeOwner
    (path : String)
    (owner group : Option Nat) :
    Action (State κ) Unit :=
  atPath path (pipeline.top.changeOwner · owner group)

/-- Cuts a file, or extends it with zeros. -/
def truncate
    (path : String)
    (handle : Option FileHandle)
    (size : Nat) :
    Action (State κ) Unit :=
  atPath path (pipeline.top.truncate · handle size)

/-- Makes a file, or empties it, and opens it. -/
def create
    (path : String)
    (mode : Nat) :
    Action (State κ) FileHandle :=
  atPath path (pipeline.top.create · mode)

/-- Opens a file. -/
def openFile
    (path : String)
    (access : Access) :
    Action (State κ) FileHandle :=
  atPath path (pipeline.top.openFile · access)

/-- Reads from an open file. -/
def read
    (path : String)
    (handle : FileHandle)
    (offset length : Nat) :
    Action (State κ) Bytes :=
  atPath path (pipeline.top.read · handle offset length)

/-- Writes to an open file. -/
def write
    (path : String)
    (handle : FileHandle)
    (offset : Nat)
    (data : Bytes) :
    Action (State κ) Nat :=
  atPath path (pipeline.top.write · handle offset data)

/-- The room where the first device lies. -/
def capacity
    (path : String) :
    Action (State κ) Capacity :=
  atPath path pipeline.top.capacity

/-- Passes what was written to an open file on to the devices. -/
def flush
    (path : String)
    (handle : FileHandle) :
    Action (State κ) Unit :=
  atPath path (pipeline.top.flush · handle)

/-- Closes a file. -/
def release
    (path : String)
    (handle : FileHandle) :
    Action (State κ) Unit :=
  atPath path (pipeline.top.release · handle)

/-- Passes what was written to an open file on to the medium. -/
def sync
    (path : String)
    (handle : FileHandle)
    (dataOnly : Bool) :
    Action (State κ) Unit :=
  atPath path (pipeline.top.sync · handle dataOnly)

/-- The logical size of a file. -/
def fileSize
    (path : String) :
    Action (State κ) Nat :=
  atPath path (pipeline.top.fileSize · none)

/-- The logical size of a file whose size the devices reported. -/
def logicalSize
    (path : String)
    (handle : Option FileHandle)
    (reported : Nat) :
    Action (State κ) Nat :=
  atPath path (pipeline.top.logicalSize · handle reported)

/-- The permissions of a file that is made by writing to it. -/
def writtenMode : Nat := 0o644

/-- Opens a file for writing, and makes it if there is none. -/
def openOrCreate
    (path : Path) :
    Action (State κ) FileHandle := do
  match ← Action.attempt (pipeline.top.attributes path none) with
  | .ok _ => pipeline.top.openFile path .readWrite
  | .error error =>
    if error.isNotFound then
      pipeline.top.create path writtenMode
    else
      throw error

/-- Writes at an offset of a file, which is made if there is none. -/
def writeRange
    (path : String)
    (offset : Nat)
    (data : Bytes) :
    Action (State κ) Nat :=
  atPath path fun path => do
    let handle ← pipeline.openOrCreate path
    Action.finallyDo
      (pipeline.top.write path handle offset data)
      (pipeline.top.release path handle)

/-- Reads from an offset of a file as many bytes as are asked for, or all up
to its end. -/
def readRange
    (path : String)
    (offset : Nat)
    (length : Option Nat) :
    Action (State κ) Bytes :=
  atPath path fun path => do
    let handle ← pipeline.top.openFile path .readOnly
    Action.finallyDo
      (do
        let length ←
          match length with
          | some length => pure length
          | none => do
            let size ← pipeline.top.fileSize path (some handle)
            pure (size - offset)
        pipeline.top.read path handle offset length)
      (pipeline.top.release path handle)

end Pipeline

end Strata
