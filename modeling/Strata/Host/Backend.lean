import Strata.Device.Request
import Strata.Host.Tree

/-!
# The host as a backend

How the host answers the requests to devices.
-/

namespace Strata.Host

/-- What the host does for a request. -/
def serve :
    DeviceRequest → HostAction Outcome
  | .openFile path access => do return .opened (← openFile path access)
  | .create path mode => do
    return .opened (← createFile path mode .readWrite)
  | .release file => do
    close file
    return .done
  | .read file offset length => do
    return .data (← readAt file offset length)
  | .write file offset data => do
    writeAt file offset data
    return .written data.length
  | .flush file => do
    let _ ← HostAction.ask (·.openedFile file)
    return .done
  | .sync file _ => do
    sync file
    return .done
  | .truncate path size => do
    setSizeOf path size
    return .done
  | .truncateOpened file size => do
    setSize file size
    return .done
  | .makeDirectory path mode => do
    makeDirectory path mode
    return .done
  | .removeDirectory path => do
    removeDirectory path
    return .done
  | .unlink path => do
    unlink path
    return .done
  | .rename source target => do
    rename source target
    return .done
  | .symlink target path => do
    symlink target path
    return .done
  | .link existing added => do
    link existing added
    return .done
  | .changeMode path mode => do
    changeMode path mode
    return .done
  | .changeOwner path owner group => do
    changeOwner path owner group
    return .done
  | .list path => do return .listing (← listing path)

/-- Makes a directory unless there is one, and gives its absolute path without
links. -/
def openRoot
    (path : String) :
    HostAction String := do
  makeDirectories path
  HostAction.ask (·.canonical path)

/-- The room that is reported everywhere on the host. -/
def room : Capacity where
  blockSize := 4096
  blocks := Nat.pow 2 24
  blocksFree := Nat.pow 2 23
  blocksAvailable := Nat.pow 2 23
  files := Nat.pow 2 20
  filesFree := Nat.pow 2 19
  nameMax := nameLimit

/-- The host as the backend of a fleet. -/
def backend :
    Backend Host where
  perform request host :=
    let (answer, host) := (serve request).execute host
    (some answer, host)
  openRoot path host := (openRoot path).execute host
  attributes path host := ((attributes path).execute host).1
  openedAttributes file host := ((openedAttributes file).execute host).1
  readLink path host := ((readLink path).execute host).1
  capacity path host := (host.resolve path true).map fun _ => room

end Strata.Host
