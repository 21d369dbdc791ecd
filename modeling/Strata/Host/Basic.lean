import Strata.Contents
import Strata.Error
import Strata.Handle
import Strata.Table

/-!
# The host file system

The host keeps files, directories, symbolic links and pipes under numbers.
Directories give names to numbers, so one file may have several names, and a
file that has lost its last name can still be used by whoever has it open.
-/

namespace Strata

/-- The number of a stored object. -/
abbrev NodeId := Nat

/-- What a stored object holds. -/
inductive Body where
  | file (contents : Contents)
  | directory (entries : Table String NodeId)
  | symlink (target : String)
  | fifo
  deriving Inhabited

/-- A stored object. -/
structure Node where
  body : Body
  /-- The twelve permission bits. -/
  permissions : Nat
  /-- How many names the object has. -/
  links : Nat := 1
  owner : Nat := 0
  group : Nat := 0
  modified : Nat := 0
  deriving Inhabited

/-- An open file or directory. -/
structure OpenFile where
  node : NodeId
  access : Access
  deriving DecidableEq, Repr, Inhabited

/-- The state of the host.  The root directory has the number zero. -/
structure Host where
  nodes : Array Node
  opened : Table Descriptor OpenFile := []
  nextDescriptor : Descriptor := 0
  /-- The names that lead from the root to the working directory. -/
  home : List String := []
  /-- The permissions that new objects do not get. -/
  mask : Nat := 0o022
  /-- The time that changes are stamped with. -/
  time : Nat := 0
  deriving Inhabited

/-- A step on the host that may fail. -/
abbrev HostAction :=
  ExceptT HostError (StateM Host)

namespace HostAction

variable {α : Type}

/-- Runs a step from a host to its answer and the host it leaves. -/
def execute
    (action : HostAction α)
    (host : Host) :
    Except HostError α × Host :=
  StateT.run (ExceptT.run action) host

/-- The step given by what it does to a host. -/
def ofRun
    (step : Host → Except HostError α × Host) :
    HostAction α :=
  ExceptT.mk step

/-- The step that asks the host and leaves it as it is. -/
def ask
    (question : Host → Except HostError α) :
    HostAction α :=
  ofRun fun host => (question host, host)

/-- The step that changes the host. -/
def change
    (step : Host → Host) :
    HostAction Unit :=
  ofRun fun host => (.ok (), step host)

/-- The answer of a step, with its failure as a value. -/
def attempt
    (action : HostAction α) :
    HostAction (Except HostError α) :=
  ofRun fun host =>
    let (answer, reached) := action.execute host
    (.ok answer, reached)

end HostAction

namespace Body

/-- The kind of an object. -/
def kind :
    Body → Kind
  | .file _ => .file
  | .directory _ => .directory
  | .symlink _ => .symlink
  | .fifo => .other

/-- The bits of a mode that tell the kind. -/
def kindBits :
    Body → Nat
  | .file _ => 0o100000
  | .directory _ => 0o040000
  | .symlink _ => 0o120000
  | .fifo => 0o010000

/-- The size that is reported for an object. -/
def size :
    Body → Nat
  | .file contents => contents.size
  | .directory _ => 4096
  | .symlink target => target.utf8ByteSize
  | .fifo => 0

end Body

/-- What is known about an object. -/
def Node.attributes
    (node : Node) :
    Attributes :=
  { kind := node.body.kind
    size := node.body.size
    mode := node.body.kindBits + node.permissions
    links := node.links
    owner := node.owner
    group := node.group
    modified := node.modified }

namespace Host

/-- The host with an empty root directory. -/
def empty :
    Host where
  nodes := #[{ body := .directory [], permissions := 0o755 }]

/-- The object with a number. -/
def node
    (host : Host)
    (id : NodeId) :
    Node :=
  host.nodes.getD id default

/-- Whether a number stands for a directory. -/
def isDirectory
    (host : Host)
    (id : NodeId) :
    Bool :=
  (host.node id).body.kind == .directory

/-- The entries of a directory; other objects have none. -/
def entries
    (host : Host)
    (id : NodeId) :
    Table String NodeId :=
  match (host.node id).body with
  | .directory entries => entries
  | _ => []

/-- The contents of a file; other objects have none. -/
def contents
    (host : Host)
    (id : NodeId) :
    Contents :=
  match (host.node id).body with
  | .file contents => contents
  | _ => .empty

/-- Changes an object. -/
def changeNode
    (id : NodeId)
    (change : Node → Node)
    (host : Host) :
    Host :=
  { host with nodes := host.nodes.modify id change }

/-- Changes the contents of a file. -/
def changeContents
    (id : NodeId)
    (change : Contents → Contents)
    (host : Host) :
    Host :=
  let time := host.time
  host.changeNode id fun node =>
    match node with
    | { body := .file contents, permissions, links, owner, group, .. } =>
      { body := .file (change contents), permissions, links, owner, group
        modified := time }
    | other => other

/-- Changes the entries of a directory. -/
def changeEntries
    (id : NodeId)
    (change : Table String NodeId → Table String NodeId)
    (host : Host) :
    Host :=
  host.changeNode id fun node =>
    match node.body with
    | .directory entries => { node with body := .directory (change entries) }
    | _ => node

/-- The permission bit that hands the group of a directory on. -/
def groupBit : Nat := 0o2000

/-- Whether a directory hands its group on. -/
def handsGroupOn
    (host : Host)
    (directory : NodeId) :
    Bool :=
  (host.node directory).permissions.testBit 10

/-- The permissions that a new object gets of those that are asked for. -/
def granted
    (host : Host)
    (mode allowed : Nat) :
    Nat :=
  (mode &&& allowed) &&& (0o7777 ^^^ host.mask)

/-- The object that is made in a directory for a body. -/
def newNode
    (host : Host)
    (directory : NodeId)
    (body : Body)
    (permissions : Nat) :
    Node :=
  if host.handsGroupOn directory then
    { body
      permissions :=
        if body.kind == .directory then
          permissions ||| groupBit
        else
          permissions
      group := (host.node directory).group
      modified := host.time }
  else
    { body, permissions, modified := host.time }

/-- Adds an object under a name of a directory, and gives its number. -/
def addNode
    (directory : NodeId)
    (name : String)
    (body : Body)
    (permissions : Nat)
    (host : Host) :
    NodeId × Host :=
  let id := host.nodes.size
  let node := host.newNode directory body permissions
  (id, { host with nodes := host.nodes.push node }.changeEntries directory
    (·.set name id))

/-- Gives a name of a directory to an object that exists. -/
def setName
    (directory : NodeId)
    (name : String)
    (id : NodeId)
    (host : Host) :
    Host :=
  host.changeEntries directory (·.set name id)

/-- Takes a name out of a directory. -/
def eraseName
    (directory : NodeId)
    (name : String)
    (host : Host) :
    Host :=
  host.changeEntries directory (Table.erase name)

/-- Counts one name more of an object. -/
def addLink
    (id : NodeId)
    (host : Host) :
    Host :=
  host.changeNode id fun node => { node with links := node.links + 1 }

/-- Counts one name less of an object. -/
def dropLink
    (id : NodeId)
    (host : Host) :
    Host :=
  host.changeNode id fun node => { node with links := node.links - 1 }

/-- Opens an object. -/
def openNode
    (id : NodeId)
    (access : Access)
    (host : Host) :
    Descriptor × Host :=
  (host.nextDescriptor,
    { host with
      opened := host.opened.set host.nextDescriptor { node := id, access }
      nextDescriptor := host.nextDescriptor + 1 })

end Host

end Strata
