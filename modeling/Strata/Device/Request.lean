import Strata.Bytes
import Strata.Error
import Strata.Handle
import Strata.Workers

/-!
# Requests to devices

What one device can be asked, and what it answers.  A device is reached
through a backend, which may be the host or anything else that answers the
same requests, at will with failures.
-/

namespace Strata

/-- One request to one device, on paths and open files of the host. -/
inductive DeviceRequest where
  | openFile (path : String) (access : Access)
  | create (path : String) (mode : Nat)
  | release (file : Descriptor)
  | read (file : Descriptor) (offset length : Nat)
  | write (file : Descriptor) (offset : Nat) (data : Bytes)
  | flush (file : Descriptor)
  | sync (file : Descriptor) (dataOnly : Bool)
  | truncate (path : String) (size : Nat)
  | truncateOpened (file : Descriptor) (size : Nat)
  | makeDirectory (path : String) (mode : Nat)
  | removeDirectory (path : String)
  | unlink (path : String)
  | rename (source target : String)
  | symlink (target link : String)
  | link (existing added : String)
  | changeMode (path : String) (mode : Nat)
  | changeOwner (path : String) (owner group : Option Nat)
  | list (path : String)
  deriving DecidableEq, Repr, Inhabited

/-- Whether bytes are moved, so that the devices have to agree on how many. -/
def DeviceRequest.isTransfer :
    DeviceRequest → Bool
  | .read .. => true
  | .write .. => true
  | _ => false

/-- What a device answers to a request that succeeds. -/
inductive Outcome where
  | done
  | opened (file : Descriptor)
  | data (bytes : Bytes)
  | written (count : Nat)
  | listing (entries : List Entry)
  deriving DecidableEq, Repr, Inhabited

namespace Outcome

/-- The number of bytes that were moved. -/
def transferred? :
    Outcome → Option Nat
  | .data bytes => some bytes.length
  | .written count => some count
  | _ => none

/-- The bytes that were read. -/
def bytes :
    Outcome → Bytes
  | .data bytes => bytes
  | _ => []

/-- The entries that were listed. -/
def entries :
    Outcome → List Entry
  | .listing entries => entries
  | _ => []

end Outcome

/-- What comes back from a device; nothing does if the worker stopped. -/
abbrev Report :=
  Option (Except HostError Outcome)

/-- What answers the requests, over a state of its own. -/
structure Backend
    (κ : Type) where
  perform : DeviceRequest → κ → Report × κ
  /-- Makes the directory of a device unless there is one, and gives its
  absolute path without links. -/
  openRoot : (path : String) → κ → Except HostError String × κ
  /-- What is known about a path, links not followed. -/
  attributes : (path : String) → κ → Except HostError Attributes
  /-- What is known about an open file. -/
  openedAttributes : Descriptor → κ → Except HostError Attributes
  readLink : (path : String) → κ → Except HostError String
  /-- The room where a path lies. -/
  capacity : (path : String) → κ → Except HostError Capacity
  /-- What is granted to the workers that perform the requests. -/
  grants : Workers.Grants := {}

end Strata
