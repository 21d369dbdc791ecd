import Strata.Coding.Coder
import Strata.Device.Fanout
import Strata.Host.Name

/-!
# Fleets of devices

A fleet is a coder over device directories.  A block that is written becomes
one fragment on each device, and a block that is read is decoded from the
fragments of all of them.  Files have the coder's names on the devices;
directories and symbolic links keep their own.
-/

namespace Strata

/-- The device directories and what answers the requests on them. -/
structure Devices
    (κ : Type) where
  backend : Backend κ
  /-- The directory of each device. -/
  roots : List String

/-- What a device stage works on. -/
structure Fleet
    (κ : Type) where
  coder : Coder
  host : κ

namespace Fleet

variable {κ α : Type}

/-- An action on what the backend works on. -/
def onHost
    (action : Action κ α) :
    Action (Fleet κ) α :=
  Action.ofRun fun fleet =>
    match fleet with
    | ⟨coder, host⟩ =>
      let (answer, host) := action.execute host
      (answer, ⟨coder, host⟩)

/-- An action on the coder. -/
def onCoder
    (action : Action Coder α) :
    Action (Fleet κ) α :=
  Action.ofRun fun fleet =>
    match fleet with
    | ⟨coder, host⟩ =>
      let (answer, coder) := action.execute coder
      (answer, ⟨coder, host⟩)

/-- Asks the coder. -/
def askCoder
    (question : Coder → Except Error α) :
    Action (Fleet κ) α :=
  Action.ofRun fun fleet => (question fleet.coder, fleet)

/-- Tells the coder what has become of a name. -/
def tellCoder
    (change : Coder → Coder) :
    Action (Fleet κ) Unit :=
  Action.ofRun fun fleet =>
    (.ok (), { fleet with coder := change fleet.coder })

/-- Asks the backend; a failure is not the failure of a fan-out. -/
def askHost
    (question : κ → Except HostError α) :
    Action (Fleet κ) α :=
  Action.ofRun fun fleet => ((question fleet.host).mapError .host, fleet)

end Fleet

namespace Devices

variable {κ : Type}

/-- Where a path is on the device below a root. -/
def resolve
    (root : String)
    (path : Path) :
    String :=
  Host.join root path.relative

/-- The path that a place on the device below a root stands for, if it is
one. -/
def unresolve?
    (root place : String) :
    Option String :=
  (Host.relativeTo? root place).map ("/" ++ ·)

/-- The number of devices. -/
def count
    (devices : Devices κ) :
    Nat :=
  devices.roots.length

/-- Where the file of a path is on each device. -/
def filePlaces
    (devices : Devices κ)
    (coder : Coder)
    (path : Path) :
    List String :=
  devices.roots.mapIdx fun device root =>
    resolve root (coder.devicePath path device)

/-- Where a path itself is on each device. -/
def barePlaces
    (devices : Devices κ)
    (path : Path) :
    List String :=
  devices.roots.map fun root => resolve root path

/-- Where the file of a path is on each device. -/
def files
    (devices : Devices κ)
    (path : Path) :
    Action (Fleet κ) (List String) :=
  Fleet.askCoder fun coder => .ok (devices.filePlaces coder path)

/-- Runs one request on each device. -/
def fanOut
    (devices : Devices κ)
    (requests : List DeviceRequest) :
    Action (Fleet κ) (List Outcome) :=
  Fleet.onHost (Fanout.dispatch devices.backend requests)

/-- Runs requests whose outcomes do not matter. -/
def fanOutDone
    (devices : Devices κ)
    (requests : List DeviceRequest) :
    Action (Fleet κ) Unit := do
  let _ ← devices.fanOut requests

/-- The root of the first device. -/
def primary
    (devices : Devices κ) :
    Except Error String :=
  match devices.roots with
  | root :: _ => .ok root
  | [] => .error (.config "device stage has no devices")

/-- What the first device knows about a path.  Where files have names of their
own, a path without a file may be a directory or a link. -/
def primaryAttributes
    (devices : Devices κ)
    (path : Path) :
    Action (Fleet κ) Attributes := do
  let root ← Action.ofExcept devices.primary
  let coder ← Fleet.askCoder .ok
  Fleet.askHost fun host =>
    match devices.backend.attributes
        (resolve root (coder.devicePath path 0)) host with
    | .ok attributes => .ok attributes
    | .error error =>
      if error = .notFound ∧ coder.mode = .erasure then
        devices.backend.attributes (resolve root path) host
      else
        .error error

/-- Where what exists at a path is on each device. -/
def existingPlaces
    (devices : Devices κ)
    (path : Path) :
    Action (Fleet κ) (List String) := do
  let attributes ← devices.primaryAttributes path
  if attributes.isDirectory then
    return devices.barePlaces path
  else
    devices.files path

/-- The open files of the devices from a number on. -/
def descriptors
    (device : Nat) :
    List Outcome → Except Error (List Descriptor)
  | [] => .ok []
  | .opened file :: rest =>
    (descriptors (device + 1) rest).map (file :: ·)
  | _ :: _ => .error (.workerLost device)

/-- Opens one file on each device. -/
def openAll
    (devices : Devices κ)
    (requests : List DeviceRequest) :
    Action (Fleet κ) FileHandle := do
  let outcomes ← devices.fanOut requests
  let descriptors ← Action.ofExcept (descriptors 0 outcomes)
  return ⟨descriptors⟩

/-! ## Files -/

/-- Makes the file of a path on each device, or empties it. -/
def create
    (devices : Devices κ)
    (path : Path)
    (mode : Nat) :
    Action (Fleet κ) FileHandle := do
  let places ← devices.files path
  let handle ← devices.openAll (places.map (.create · mode))
  Fleet.tellCoder (·.onCreate path)
  return handle

/-- Opens the file of a path on each device. -/
def openFile
    (devices : Devices κ)
    (path : Path)
    (access : Access) :
    Action (Fleet κ) FileHandle := do
  let places ← devices.files path
  devices.openAll (places.map (.openFile · access))

/-- Runs one request on each file of a handle. -/
def onHandle
    (devices : Devices κ)
    (handle : FileHandle)
    (request : Descriptor → DeviceRequest) :
    Action (Fleet κ) Unit :=
  devices.fanOutDone (handle.descriptors.map request)

/-- Reads and decodes the block at an offset, and gives at most `length` bytes
of it. -/
def read
    (devices : Devices κ)
    (path : Path)
    (handle : FileHandle)
    (offset length : Nat) :
    Action (Fleet κ) Bytes := do
  match ← Fleet.askCoder (·.locate path offset length) with
  | none => return []
  | some placement =>
    if placement.length = 0 then
      return []
    let outcomes ← devices.fanOut
      (handle.descriptors.map (.read · placement.offset placement.length))
    let fragments := outcomes.map (·.bytes)
    if (fragments.headD []).isEmpty then
      return []
    let block ← Fleet.askCoder (·.decode fragments placement)
    return block.take length

/-- Splits a block into fragments and writes one to each device. -/
def write
    (devices : Devices κ)
    (path : Path)
    (handle : FileHandle)
    (offset : Nat)
    (block : Bytes)
    (pads : List Bytes) :
    Action (Fleet κ) Nat := do
  let set ← Fleet.onCoder
    (Coder.encode path block offset devices.count pads)
  let outcomes ← devices.fanOut
    ((handle.descriptors.zip set.fragments).map fun (file, fragment) =>
      .write file set.placement.offset fragment)
  let written := Fanout.leading outcomes
  if written < set.placement.length then
    throw (.shortTransfer set.placement.length written)
  return block.length

/-- Cuts a file, where the coder cuts its fragments. -/
def truncate
    (devices : Devices κ)
    (path : Path)
    (handle : Option FileHandle)
    (size : Nat) :
    Action (Fleet κ) Unit := do
  let cut ← Fleet.onCoder <| Action.ofRun fun coder =>
    let (cut, coder) := coder.truncate path size
    (.ok cut, coder)
  match cut with
  | none => return ()
  | some length =>
    match handle with
    | some handle => devices.onHandle handle (.truncateOpened · length)
    | none =>
      let places ← devices.files path
      devices.fanOutDone (places.map (.truncate · length))

/-- What is known about a path or an open file.  The coder's size of a file is
preferred to that of its fragments. -/
def attributes
    (devices : Devices κ)
    (path : Path)
    (handle : Option FileHandle) :
    Action (Fleet κ) Attributes := do
  let found ←
    match handle.bind (·.descriptors.head?) with
    | some file => Fleet.askHost (devices.backend.openedAttributes file)
    | none => devices.primaryAttributes path
  if found.isFile then
    let tracked ← Fleet.askCoder fun coder => .ok (coder.trackedSize? path)
    return { found with size := tracked.getD found.size }
  else
    return found

/-! ## Names -/

/-- Takes the name of a file away. -/
def unlink
    (devices : Devices κ)
    (path : Path) :
    Action (Fleet κ) Unit := do
  let places ← devices.files path
  devices.fanOutDone (places.map .unlink)
  Fleet.tellCoder (·.onUnlink path)

/-- Gives a directory or a file another name. -/
def rename
    (devices : Devices κ)
    (source target : Path) :
    Action (Fleet κ) Unit := do
  let attributes ← devices.primaryAttributes source
  if attributes.isDirectory then
    devices.fanOutDone
      (List.zipWith .rename (devices.barePlaces source)
        (devices.barePlaces target))
    Fleet.tellCoder (·.onRenameDirectory source target)
  else
    let sources ← devices.files source
    let targets ← devices.files target
    devices.fanOutDone (List.zipWith .rename sources targets)
    Fleet.tellCoder (·.onRename source target)

/-- What a link on the device below a root says: an absolute target is seen
from the root. -/
def linkTarget
    (root target : String) :
    String :=
  match target.toList with
  | '/' :: inside => Host.join root (String.ofList inside)
  | _ => target

/-- Makes a symbolic link on each device. -/
def symlink
    (devices : Devices κ)
    (target : String)
    (path : Path) :
    Action (Fleet κ) Unit :=
  devices.fanOutDone (devices.roots.map fun root =>
    .symlink (linkTarget root target) (resolve root path))

/-- What a symbolic link says, seen from the root of its device. -/
def readLink
    (devices : Devices κ)
    (path : Path) :
    Action (Fleet κ) String := do
  let root ← Action.ofExcept devices.primary
  let target ← Fleet.askHost (devices.backend.readLink (resolve root path))
  return (unresolve? root target).getD target

/-- Gives a file one more name. -/
def link
    (devices : Devices κ)
    (existing added : Path) :
    Action (Fleet κ) Unit := do
  let sources ← devices.files existing
  let targets ← devices.files added
  devices.fanOutDone (List.zipWith .link sources targets)
  Fleet.tellCoder (·.onLink existing added)

/-- Changes what exists at a path on each device. -/
def changeExisting
    (devices : Devices κ)
    (path : Path)
    (request : String → DeviceRequest) :
    Action (Fleet κ) Unit := do
  let places ← devices.existingPlaces path
  devices.fanOutDone (places.map request)

/-- Lists a directory on each device. -/
def openDirectory
    (devices : Devices κ)
    (path : Path) :
    Action (Fleet κ) DirectoryHandle := do
  let outcomes ← devices.fanOut ((devices.barePlaces path).map .list)
  return ⟨outcomes.map (·.entries)⟩

/-- The entries of a directory under their logical names. -/
def readDirectory
    (handle : DirectoryHandle) :
    Action (Fleet κ) (List Entry) :=
  Fleet.askCoder fun coder =>
    .ok (handle.primary.filterMap fun entry =>
      (coder.listedName? entry.name (entry.kind == .directory)).map fun name =>
        { entry with name })

/-- The room on the first device. -/
def capacity
    (devices : Devices κ) :
    Action (Fleet κ) Capacity := do
  let root ← Action.ofExcept devices.primary
  Action.ofRun fun fleet =>
    ((devices.backend.capacity root fleet.host).mapError (.device 0), fleet)

end Devices

end Strata
