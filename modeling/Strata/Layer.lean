import Strata.Bytes
import Strata.Error
import Strata.Handle
import Strata.Path

/-!
# Layers

A layer answers file system requests.  It is a record of actions over one
state, so that a stage is a function from the layer below it to the layer it
offers: a request that the stage does not change is the lower layer's own.
Nothing is assumed of the lower layer, which may be a flat memory, a set of
devices, or a layer that cuts its transfers short or fails at will.

Reading answers the bytes that were moved, at most as many as were asked for;
writing answers how many of the given bytes were taken.
-/

namespace Strata

/-- The requests on the tree of names, which no stage changes. -/
structure Tree
    (σ : Type) where
  makeDirectory : Path → (mode : Nat) → Action σ Unit
  removeDirectory : Path → Action σ Unit
  unlink : Path → Action σ Unit
  rename : (source target : Path) → Action σ Unit
  symlink : (target : String) → (link : Path) → Action σ Unit
  readLink : Path → Action σ String
  link : (existing added : Path) → Action σ Unit
  changeMode : Path → (mode : Nat) → Action σ Unit
  changeOwner : Path → (owner group : Option Nat) → Action σ Unit
  openDirectory : Path → Action σ DirectoryHandle
  readDirectory : Path → DirectoryHandle → Action σ (List Entry)
  releaseDirectory : Path → DirectoryHandle → Action σ Unit
  capacity : Path → Action σ Capacity

/-- One layer of a pipeline. -/
structure Layer
    (σ : Type)
    extends Tree σ where
  /-- The names of this layer and of those below it, the topmost first. -/
  names : List String
  create : Path → (mode : Nat) → Action σ FileHandle
  openFile : Path → Access → Action σ FileHandle
  release : Path → FileHandle → Action σ Unit
  read : Path → FileHandle → (offset length : Nat) → Action σ Bytes
  write : Path → FileHandle → (offset : Nat) → Bytes → Action σ Nat
  truncate : Path → Option FileHandle → (size : Nat) → Action σ Unit
  /-- The size of a file in this layer's view. -/
  fileSize : Path → Option FileHandle → Action σ Nat
  /-- The size in this layer's view of a file whose size the lower layer
  reported. -/
  logicalSize : Path → Option FileHandle → (reported : Nat) → Action σ Nat
  attributes : Path → Option FileHandle → Action σ Attributes
  flush : Path → FileHandle → Action σ Unit
  sync : Path → FileHandle → (dataOnly : Bool) → Action σ Unit

namespace Layer

variable {σ α : Type}

/-- The layer below every stage: it has no operation of its own, and takes a
reported size as it is. -/
def bottom
    (name : String) :
    Layer σ where
  names := [name]
  makeDirectory _ _ := throw (.unsupported name)
  removeDirectory _ := throw (.unsupported name)
  unlink _ := throw (.unsupported name)
  rename _ _ := throw (.unsupported name)
  symlink _ _ := throw (.unsupported name)
  readLink _ := throw (.unsupported name)
  link _ _ := throw (.unsupported name)
  changeMode _ _ := throw (.unsupported name)
  changeOwner _ _ _ := throw (.unsupported name)
  openDirectory _ := throw (.unsupported name)
  readDirectory _ _ := throw (.unsupported name)
  releaseDirectory _ _ := throw (.unsupported name)
  capacity _ := throw (.unsupported name)
  create _ _ := throw (.unsupported name)
  openFile _ _ := throw (.unsupported name)
  release _ _ := throw (.unsupported name)
  read _ _ _ _ := throw (.unsupported name)
  write _ _ _ _ := throw (.unsupported name)
  truncate _ _ _ := throw (.unsupported name)
  fileSize _ _ := throw (.unsupported name)
  logicalSize _ _ reported := return reported
  attributes _ _ := throw (.unsupported name)
  flush _ _ := throw (.unsupported name)
  sync _ _ _ := throw (.unsupported name)

/-- The name of the layer itself. -/
def name
    (layer : Layer σ) :
    String :=
  layer.names.headD ""

/--
Runs `body` with the handle that is given, or else with one that is opened for
it and released after it, whatever it answered.
-/
def withHandle
    (layer : Layer σ)
    (path : Path)
    (handle : Option FileHandle)
    (access : Access)
    (body : FileHandle → Action σ α) :
    Action σ α :=
  match handle with
  | some given => body given
  | none => do
    let opened ← layer.openFile path access
    Action.finallyDo (body opened) (layer.release path opened)

end Layer

end Strata
