import Strata.Contents
import Strata.Layer

/-!
# A layer in memory

The plainest bottom layer keeps flat files in memory.  It notes every call, so
that what a stage asks of the layer below it can be looked at, and each read
or write may be given a limit: the transfer is then cut short or fails.
Without limits every transfer is complete.
-/

namespace Strata

/-- A limit on one transfer. -/
inductive Limit where
  | unlimited
  | atMost (count : Nat)
  | failing (number : Nat)
  deriving DecidableEq, Repr, Inhabited

/-- What a call to the layer asked for. -/
inductive MemoryCall where
  | create (mode : Nat)
  | openFile (access : Access)
  | release
  | read (offset length : Nat)
  | write (offset length : Nat)
  | truncate (size : Nat) (onHandle : Bool)
  | fileSize (onHandle : Bool)
  | attributes (onHandle : Bool)
  deriving DecidableEq, Repr, Inhabited

/-- The files in memory and the notes on the calls. -/
structure Memory where
  files : List (Path × Contents) := []
  directories : List Path := []
  /-- The calls so far, the latest first. -/
  calls : List MemoryCall := []
  readLimits : List Limit := []
  writeLimits : List Limit := []
  deriving Inhabited

namespace Memory

/-- The contents of a file. -/
def contents?
    (memory : Memory)
    (path : Path) :
    Option Contents :=
  memory.files.lookup path

/-- Changes the entry of a path in a list of files. -/
def changeFile
    (path : Path)
    (change : Contents → Contents) :
    List (Path × Contents) → List (Path × Contents)
  | [] => []
  | (other, contents) :: rest =>
    if other = path then
      (other, change contents) :: rest
    else
      (other, contents) :: changeFile path change rest

/-- Changes the contents of a file that exists. -/
def change
    (memory : Memory)
    (path : Path)
    (change : Contents → Contents) :
    Memory :=
  { memory with files := changeFile path change memory.files }

/-- Puts contents at a path, in place of what was there. -/
def put
    (memory : Memory)
    (path : Path)
    (contents : Contents) :
    Memory :=
  if (memory.contents? path).isSome then
    memory.change path fun _ => contents
  else
    { memory with files := (path, contents) :: memory.files }

/-- Notes a call. -/
def note
    (memory : Memory)
    (call : MemoryCall) :
    Memory :=
  { memory with calls := call :: memory.calls }

/-- Notes a call, and fails unless the file exists. -/
def onFile
    {α : Type}
    (call : MemoryCall)
    (path : Path)
    (answer : Memory → Contents → Except Error α × Memory) :
    Action Memory α :=
  Action.ofRun fun memory =>
    let memory := memory.note call
    match memory.contents? path with
    | none => (.error (.host .notFound), memory)
    | some contents => answer memory contents

/-- How many of `count` bytes are moved under a limit. -/
def allowed
    (count : Nat) :
    Limit → Except Error Nat
  | .unlimited => .ok count
  | .atMost most => .ok (min count most)
  | .failing number => .error (.host (.os number))

/-- Reads under the next limit on reading. -/
def read
    (path : Path)
    (offset length : Nat) :
    Action Memory Bytes :=
  onFile (.read offset length) path fun memory contents =>
    let limit := memory.readLimits.headD .unlimited
    let present := contents.read offset length
    ((allowed present.length limit).map present.take,
      { memory with readLimits := memory.readLimits.tail })

/-- Writes under the next limit on writing. -/
def write
    (path : Path)
    (offset : Nat)
    (data : Bytes) :
    Action Memory Nat :=
  onFile (.write offset data.length) path fun memory _ =>
    let limit := memory.writeLimits.headD .unlimited
    let memory := { memory with writeLimits := memory.writeLimits.tail }
    match allowed data.length limit with
    | .error error => (.error error, memory)
    | .ok count =>
      (.ok count,
        memory.change path (·.write offset (data.take count)))

/-- What is known about a path. -/
def attributes
    (path : Path)
    (handle : Option FileHandle) :
    Action Memory Attributes :=
  Action.ofRun fun memory =>
    let memory := memory.note (.attributes handle.isSome)
    let attributes := fun kind size mode =>
      { kind, size, mode, links := 1, owner := 0, group := 0, modified := 0 }
    if memory.directories.contains path then
      (.ok (attributes .directory 4096 16877), memory)
    else
      match memory.contents? path with
      | some contents => (.ok (attributes .file contents.size 33188), memory)
      | none => (.error (.host .notFound), memory)

/-- The layer over the files in memory. -/
def layer :
    Layer Memory :=
  { Layer.bottom "memory" with
    create := fun path mode => Action.ofRun fun memory =>
      (.ok ⟨[]⟩, (memory.note (.create mode)).put path .empty)
    openFile := fun path access =>
      onFile (.openFile access) path fun memory _ => (.ok ⟨[]⟩, memory)
    release := fun _ _ => Action.ofRun fun memory =>
      (.ok (), memory.note .release)
    read := fun path _ offset length => read path offset length
    write := fun path _ offset data => write path offset data
    truncate := fun path handle size =>
      onFile (.truncate size handle.isSome) path fun memory _ =>
        (.ok (), memory.change path (·.resize size))
    fileSize := fun path handle =>
      onFile (.fileSize handle.isSome) path fun memory contents =>
        (.ok contents.size, memory)
    attributes := attributes }

end Memory

end Strata
