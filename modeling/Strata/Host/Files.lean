import Strata.Host.Lookup

/-!
# Files of the host

Opening, reading, writing and cutting files.  An open file keeps its object
whatever happens to the names, and the position of a transfer is part of the
request.  A transfer of nothing asks nothing of the host.
-/

namespace Strata.Host

/-- The first number that is no offset. -/
def offsetLimit : Nat := Nat.pow 2 63

/-- The first size that no file has. -/
def sizeLimit : Nat := Nat.pow 2 44

/-- Opens what a path leads to. -/
def openFile
    (path : String)
    (access : Access) :
    HostAction Descriptor := do
  let id ← HostAction.ask (·.resolve path true)
  if access.writes && (← get).isDirectory id then
    throw .isDirectory
  modifyGet (openNode id access)

/-- Opens a file after making it, or after emptying it if it exists. -/
def createFile
    (path : String)
    (mode : Nat)
    (access : Access) :
    HostAction Descriptor := do
  let found ← HostAction.ask (·.locate path true)
  if found.slash then
    throw .isDirectory
  match found.place with
  | .directory _ => throw .isDirectory
  | .entry _ _ id =>
    if (← get).isDirectory id then
      throw .isDirectory
    modify (changeContents id fun _ => .empty)
    modifyGet (openNode id access)
  | .free parent name =>
    let permissions := (← get).granted mode 0o7777
    let id ← modifyGet (addNode parent name (.file .empty) permissions)
    modifyGet (openNode id access)

/-- The open file with a number. -/
def openedFile
    (host : Host)
    (descriptor : Descriptor) :
    Except HostError OpenFile :=
  match host.opened.find? descriptor with
  | some file => .ok file
  | none => .error .badDescriptor

/-- Forgets an open file. -/
def close
    (descriptor : Descriptor) :
    HostAction Unit :=
  HostAction.change fun host =>
    { host with opened := host.opened.erase descriptor }

/-- The file to move bytes of, if the host takes the request. -/
def transferTarget
    (host : Host)
    (descriptor : Descriptor)
    (allowed : Access → Bool)
    (offset length : Nat) :
    Except HostError NodeId := do
  if offsetLimit ≤ offset then
    throw .invalidArgument
  let file ← host.openedFile descriptor
  match (host.node file.node).body with
  | .fifo => throw .illegalSeek
  | body =>
    if !allowed file.access then
      throw .badDescriptor
    if offsetLimit ≤ offset + length then
      throw .invalidArgument
    if body.kind == .directory then
      throw .isDirectory
    return file.node

/-- Reads bytes at an offset, fewer only at the end of the file. -/
def readAt
    (descriptor : Descriptor)
    (offset length : Nat) :
    HostAction Bytes :=
  if length = 0 then
    return []
  else
    HostAction.ask fun host =>
      (host.transferTarget descriptor Access.reads offset length).map
        fun id => (host.contents id).read offset length

/-- Writes all of the bytes at an offset. -/
def writeAt
    (descriptor : Descriptor)
    (offset : Nat)
    (data : Bytes) :
    HostAction Unit :=
  if data.isEmpty then
    return ()
  else
    HostAction.ofRun fun host =>
      match host.transferTarget descriptor Access.writes offset
          data.length with
      | .error error => (.error error, host)
      | .ok id =>
        if sizeLimit < offset + data.length then
          (.error .tooLarge, host)
        else
          (.ok (), host.changeContents id (·.write offset data))

/-- The refusal of a size that the host has no number for. -/
def sizeFault?
    (size : Nat) :
    Option HostError :=
  if offsetLimit ≤ size then
    some (.refused "number too large to fit in target type")
  else
    none

/-- Cuts an open file to a size, or extends it with zeros. -/
def setSize
    (descriptor : Descriptor)
    (size : Nat) :
    HostAction Unit :=
  HostAction.ofRun fun host =>
    match sizeFault? size with
    | some fault => (.error fault, host)
    | none =>
      match host.openedFile descriptor with
      | .error error => (.error error, host)
      | .ok file =>
        if !file.access.writes ∨
            (host.node file.node).body.kind ≠ .file then
          (.error .invalidArgument, host)
        else if sizeLimit < size then
          (.error .tooLarge, host)
        else
          (.ok (), host.changeContents file.node (·.resize size))

/-- Runs a step with an open file, which is closed afterwards. -/
def withOpened
    {α : Type}
    (opening : HostAction Descriptor)
    (body : Descriptor → HostAction α) :
    HostAction α := do
  let descriptor ← opening
  let answer ← HostAction.attempt (body descriptor)
  close descriptor
  HostAction.ask fun _ => answer

/-- Cuts the file that a path leads to, or extends it with zeros. -/
def setSizeOf
    (path : String)
    (size : Nat) :
    HostAction Unit :=
  withOpened (openFile path .writeOnly) (setSize · size)

/-- Passes what was written on to the medium, which pipes do not have. -/
def sync
    (descriptor : Descriptor) :
    HostAction Unit :=
  HostAction.ask fun host => do
    let file ← host.openedFile descriptor
    if (host.node file.node).body.kind = .other then
      throw .invalidArgument

/-- What is known about an open file. -/
def openedAttributes
    (descriptor : Descriptor) :
    HostAction Attributes :=
  HostAction.ask fun host =>
    (host.openedFile descriptor).map fun file =>
      (host.node file.node).attributes

/-- The bytes of a whole file. -/
def readAll
    (path : String) :
    HostAction Bytes :=
  withOpened (openFile path .readOnly) fun descriptor =>
    HostAction.ask fun host => do
      let file ← host.openedFile descriptor
      if host.isDirectory file.node then
        throw .isDirectory
      return (host.contents file.node).toBytes

/-- The permissions that are asked for when none are given. -/
def plainMode : Nat := 0o666

/-- Makes a file that holds the given bytes and nothing else. -/
def writeAll
    (path : String)
    (data : Bytes) :
    HostAction Unit :=
  withOpened (createFile path plainMode .writeOnly) (writeAt · 0 data)

end Strata.Host
