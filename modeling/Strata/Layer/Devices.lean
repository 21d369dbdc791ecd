import Strata.Device.Fleet
import Strata.Session

/-!
# The device stage

The bottom stage of a pipeline, over a fleet of devices.  Its transfers are
timed, and its pads are drawn before a block is split.
-/

namespace Strata

variable {κ : Type}

/-- Writes a block with pads that are drawn for it. -/
def Devices.writeDrawn
    (devices : Devices κ)
    (path : Path)
    (handle : FileHandle)
    (offset : Nat)
    (block : Bytes) :
    Action (Session (Fleet κ)) Nat :=
  if block.isEmpty then
    return 0
  else do
    let coder ← Session.onStorage (Fleet.askCoder .ok)
    let pads ← (List.replicate (coder.padCount devices.count) ()).mapM
      fun _ => Session.draw block.length
    Session.onStorage (devices.write path handle offset block pads)

/-- The stage over device directories. -/
def Layer.ofDevices
    (devices : Devices κ)
    (meter : Meter (Session (Fleet κ))) :
    Layer (Session (Fleet κ)) where
  names := ["devices"]
  makeDirectory path mode :=
    Session.onStorage
      (devices.fanOutDone
        ((devices.barePlaces path).map (.makeDirectory · mode)))
  removeDirectory path :=
    Session.onStorage
      (devices.fanOutDone ((devices.barePlaces path).map .removeDirectory))
  unlink path := Session.onStorage (devices.unlink path)
  rename source target := Session.onStorage (devices.rename source target)
  symlink target path := Session.onStorage (devices.symlink target path)
  readLink path := Session.onStorage (devices.readLink path)
  link existing added := Session.onStorage (devices.link existing added)
  changeMode path mode :=
    Session.onStorage (devices.changeExisting path (.changeMode · mode))
  changeOwner path owner group :=
    Session.onStorage
      (devices.changeExisting path (.changeOwner · owner group))
  openDirectory path := Session.onStorage (devices.openDirectory path)
  readDirectory _ handle := Session.onStorage (Devices.readDirectory handle)
  releaseDirectory _ _ := return ()
  capacity _ := Session.onStorage devices.capacity
  create path mode := Session.onStorage (devices.create path mode)
  openFile path access := Session.onStorage (devices.openFile path access)
  release _ handle := Session.onStorage (devices.onHandle handle .release)
  read path handle offset length :=
    meter.timed "read"
      (Session.onStorage (devices.read path handle offset length))
  write path handle offset data :=
    meter.timed "write" (devices.writeDrawn path handle offset data)
  truncate path handle size :=
    Session.onStorage (devices.truncate path handle size)
  fileSize path handle := do
    let found ← Session.onStorage (devices.attributes path handle)
    return found.size
  logicalSize _ _ reported := return reported
  attributes path handle := Session.onStorage (devices.attributes path handle)
  flush _ handle := Session.onStorage (devices.onHandle handle .flush)
  sync _ handle dataOnly :=
    Session.onStorage (devices.onHandle handle (.sync · dataOnly))

end Strata
