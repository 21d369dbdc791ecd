import Strata.Host.Files

/-!
# The tree of the host

Making, removing and renaming names, and what is known about them.  Links are
followed only where it is said.  Where a request breaks several rules, the
order of the checks decides which one is reported.
-/

namespace Strata.Host

/-- The error of a path that cannot be passed on at all. -/
def refusal
    (path : String) :
    Except HostError Unit :=
  if path.toList.contains '\x00' then
    .error nulFault
  else
    .ok ()

/-- Makes a directory. -/
def makeDirectory
    (path : String)
    (mode : Nat) :
    HostAction Unit := do
  let found ← HostAction.ask (·.locate path false)
  match found.place with
  | .free parent name =>
    let permissions := (← get).granted mode 0o1777
    let _ ← modifyGet (addNode parent name (.directory []) permissions)
  | _ => throw .alreadyExists

/-- Removes an empty directory. -/
def removeDirectory
    (path : String) :
    HostAction Unit := do
  let found ← HostAction.ask (·.locate path false)
  match found.place with
  | .directory _ => throw .busy
  | .free _ _ => throw .notFound
  | .entry parent name id =>
    let host ← get
    if !host.isDirectory id then
      throw .notDirectory
    if !(host.entries id).isEmpty then
      throw .notEmpty
    modify fun host => (host.eraseName parent name).dropLink id

/-- Takes a name of a file away. -/
def unlink
    (path : String) :
    HostAction Unit := do
  let found ← HostAction.ask (·.locate path false)
  match found.place with
  | .directory _ => throw .isDirectory
  | .free _ _ => throw .notFound
  | .entry parent name id =>
    if (← get).isDirectory id then
      throw .isDirectory
    if found.slash then
      throw .notDirectory
    modify fun host => (host.eraseName parent name).dropLink id

/-- Refuses a renaming onto an object that cannot make room. -/
def displace
    (host : Host)
    (moved displaced : NodeId) :
    Except HostError Unit :=
  match host.isDirectory moved, host.isDirectory displaced with
  | true, false => .error .notDirectory
  | false, true => .error .isDirectory
  | false, false => .ok ()
  | true, true =>
    if (host.entries displaced).isEmpty then .ok () else .error .notEmpty

/--
Gives an object another name, in place of the object that has that name.
Nothing can be moved below itself, and two names of one file stay as they are.
-/
def rename
    (source target : String) :
    HostAction Unit := do
  HostAction.ask fun _ => do
    refusal source
    refusal target
  let old ← HostAction.ask (·.locate source false)
  let new ← HostAction.ask (·.locate target false)
  match old.place, new.place with
  | .directory _, _ => throw .busy
  | _, .directory _ => throw .busy
  | .free _ _, _ => throw .notFound
  | .entry parent name id, place =>
    let host ← get
    if !host.isDirectory id && (old.slash || new.slash) then
      throw .notDirectory
    if (old.trail ++ [name]).isPrefixOf new.trail then
      throw .invalidArgument
    match place with
    | .directory _ => throw .busy
    | .free newParent newName =>
      modify fun host => (host.eraseName parent name).setName newParent newName id
    | .entry newParent newName displaced =>
      if (new.trail ++ [newName]).isPrefixOf old.trail then
        throw .notEmpty
      if id ≠ displaced then
        HostAction.ask (·.displace id displaced)
        modify fun host =>
          ((host.eraseName parent name).setName newParent newName id).dropLink
            displaced

/-- The directory and the name for an object that is to be made and is no
directory. -/
def vacancy
    (host : Host)
    (path : String) :
    Except HostError (NodeId × String) := do
  let found ← host.locate path false
  match found.place with
  | .free parent name =>
    if found.slash then throw .notFound else return (parent, name)
  | _ => throw .alreadyExists

/-- Makes a symbolic link. -/
def symlink
    (target link : String) :
    HostAction Unit := do
  HostAction.ask fun _ => do
    refusal target
    refusal link
  HostAction.ask fun _ => (pathFault? target).elim (.ok ()) .error
  let (parent, name) ← HostAction.ask (·.vacancy link)
  let _ ← modifyGet (addNode parent name (.symlink target) 0o777)

/-- Gives a file one more name. -/
def link
    (existing added : String) :
    HostAction Unit := do
  HostAction.ask fun _ => do
    refusal existing
    refusal added
  let id ← HostAction.ask (·.resolve existing false)
  let (parent, name) ← HostAction.ask (·.vacancy added)
  if (← get).isDirectory id then
    throw .notPermitted
  modify fun host => (host.setName parent name id).addLink id

/-- Makes a pipe. -/
def makePipe
    (path : String)
    (mode : Nat) :
    HostAction Unit := do
  let (parent, name) ← HostAction.ask (·.vacancy path)
  let permissions := (← get).granted mode 0o7777
  let _ ← modifyGet (addNode parent name .fifo permissions)

/-- Sets the permissions of what a path leads to, links followed. -/
def changeMode
    (path : String)
    (mode : Nat) :
    HostAction Unit := do
  let id ← HostAction.ask (·.resolve path true)
  modify (changeNode id fun node => { node with permissions := mode &&& 0o7777 })

/-- The permissions that an object keeps when it changes hands.  A file loses
the right to run as its owner, and as its group if the group may run it. -/
def permissionsKept
    (node : Node) :
    Nat :=
  if node.body.kind == .directory then
    node.permissions
  else
    let kept := node.permissions &&& 0o3777
    if node.permissions.testBit 3 then kept &&& 0o1777 else kept

/-- Sets the owner and the group of an object, where they are given. -/
def changeOwner
    (path : String)
    (owner group : Option Nat) :
    HostAction Unit := do
  let id ← HostAction.ask (·.resolve path false)
  modify (changeNode id fun node =>
    { node with
      owner := owner.getD node.owner
      group := group.getD node.group
      permissions := permissionsKept node })

/-- What is known about a path, links not followed. -/
def attributes
    (path : String) :
    HostAction Attributes :=
  HostAction.ask fun host =>
    (host.resolve path false).map fun id => (host.node id).attributes

/-- What a symbolic link says. -/
def readLink
    (path : String) :
    HostAction String :=
  HostAction.ask fun host => do
    let id ← host.resolve path false
    match (host.node id).body with
    | .symlink target => return target
    | _ => throw .invalidArgument

/-- The entries of a directory in the order of their names. -/
def listing
    (path : String) :
    HostAction (List Entry) :=
  HostAction.ask fun host => do
    let id ← host.resolve path true
    match (host.node id).body with
    | .directory entries =>
      return (entries.map fun (name, child) =>
          ({ name, kind := (host.node child).body.kind } : Entry)).mergeSort
        fun left right => decide (left.name ≤ right.name)
    | _ => throw .notDirectory

/-- Whether a path leads to a directory. -/
def leadsToDirectory
    (host : Host)
    (path : String) :
    Bool :=
  match host.resolve path true with
  | .ok id => host.isDirectory id
  | .error _ => false

/-- The permissions that directories are asked for when none are given. -/
def directoryMode : Nat := 0o777

/-- Makes a directory unless there is one. -/
def ensureDirectory
    (path : String) :
    HostAction Unit := do
  match ← HostAction.attempt (makeDirectory path directoryMode) with
  | .ok () => return ()
  | .error error =>
    if !(← get).leadsToDirectory path then
      throw error

/--
Makes a directory together with those above it.  The names are those of the
directories above, the nearest first.
-/
def ensureAll
    (path : String)
    (above : List String)
    (spell : List String → String) :
    HostAction Unit := do
  match ← HostAction.attempt (ensureDirectory path) with
  | .ok () => return ()
  | .error error =>
    if error ≠ .notFound then
      throw error
    match above with
    | [] => throw error
    | _ :: further =>
      ensureAll (spell above) further spell
      ensureDirectory path

/-- Makes a directory together with all that are missing above it. -/
def makeDirectories
    (path : String) :
    HostAction Unit := do
  let spell (names : List String) :=
    let text := String.intercalate "/" names.reverse
    if isAbsolute path then "/" ++ text else text
  if path = "" then
    return ()
  ensureAll path (steps path).reverse.tail spell

end Strata.Host
