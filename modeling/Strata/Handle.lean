import Strata.Attributes

/-!
# Handles

An open file is one open descriptor per device, and an open directory is the
listing that each device gave when it was opened.
-/

namespace Strata

/-- What a file is opened for. -/
inductive Access where
  | readOnly
  | writeOnly
  | readWrite
  deriving DecidableEq, Repr, Inhabited

namespace Access

/-- The name of an access. -/
def title :
    Access → String
  | .readOnly => "ReadOnly"
  | .writeOnly => "WriteOnly"
  | .readWrite => "ReadWrite"

/-- The access that the two lowest bits of open flags ask for. -/
def ofFlags
    (flags : Int) :
    Access :=
  if flags % 4 = 1 then
    .writeOnly
  else if flags % 4 = 2 then
    .readWrite
  else
    .readOnly

/-- Whether reading is allowed. -/
def reads :
    Access → Bool
  | .writeOnly => false
  | _ => true

/-- Whether writing is allowed. -/
def writes :
    Access → Bool
  | .readOnly => false
  | _ => true

end Access

/-- The number under which the host knows an open file. -/
abbrev Descriptor := Nat

/-- An open file: one descriptor per device. -/
structure FileHandle where
  descriptors : List Descriptor
  deriving DecidableEq, Repr, Inhabited

/-- The number of devices that a handle spans. -/
def FileHandle.devices
    (handle : FileHandle) :
    Nat :=
  handle.descriptors.length

/-- An open directory: the listing of every device. -/
structure DirectoryHandle where
  listings : List (List Entry)
  deriving DecidableEq, Repr, Inhabited

namespace DirectoryHandle

/-- The number of devices that a handle spans. -/
def devices
    (handle : DirectoryHandle) :
    Nat :=
  handle.listings.length

/-- The entries that the first device reported. -/
def primary
    (handle : DirectoryHandle) :
    List Entry :=
  handle.listings.headD []

end DirectoryHandle

end Strata
