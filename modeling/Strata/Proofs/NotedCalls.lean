import Strata.Layer.Memory
import Strata.Proofs.MirroredLayers

/-!
# Noted calls

A layer can be watched: every call that a stage makes to it is noted together
with the state that the call met.  Watching changes neither the answers nor
the states, so that what is found about the noted calls of a stage is true of
the stage over the layer itself.
-/

namespace Strata

/-- The state of a layer and the calls that were made to it. -/
structure Noted
    (σ : Type) where
  state : σ
  /-- The calls so far, the latest first, each with the state that it met. -/
  calls : List (σ × MemoryCall) := []

namespace Noted

variable {σ α β : Type}

/-- An action that is not noted. -/
def quietly
    (action : Action σ α) :
    Action (Noted σ) α :=
  Action.ofRun fun noted =>
    let (answer, state) := action.execute noted.state
    (answer, { noted with state })

/-- An action that is noted as a call. -/
def noting
    (call : MemoryCall)
    (action : Action σ α) :
    Action (Noted σ) α :=
  Action.ofRun fun noted =>
    let (answer, state) := action.execute noted.state
    (answer, { state, calls := (noted.state, call) :: noted.calls })

/-! ## Watching changes nothing -/

/-- An action on noted states does what another one does on the states
alone. -/
def Follows
    (watched : Action (Noted σ) α)
    (plain : Action σ α) :
    Prop :=
  ∀ noted : Noted σ,
    (watched.execute noted).1 = (plain.execute noted.state).1 ∧
      (watched.execute noted).2.state = (plain.execute noted.state).2

theorem Follows.noting
    (call : MemoryCall)
    (action : Action σ α) :
    Follows (Noted.noting call action) action :=
  fun _ => ⟨rfl, rfl⟩

end Noted

namespace Layer

variable {σ : Type}

open Noted

/-- A layer whose calls on open files are noted. -/
def watched
    (layer : Layer σ) :
    Layer (Noted σ) where
  names := layer.names
  makeDirectory path mode := quietly (layer.makeDirectory path mode)
  removeDirectory path := quietly (layer.removeDirectory path)
  unlink path := quietly (layer.unlink path)
  rename source target := quietly (layer.rename source target)
  symlink target link := quietly (layer.symlink target link)
  readLink path := quietly (layer.readLink path)
  link existing added := quietly (layer.link existing added)
  changeMode path mode := quietly (layer.changeMode path mode)
  changeOwner path owner group :=
    quietly (layer.changeOwner path owner group)
  openDirectory path := quietly (layer.openDirectory path)
  readDirectory path handle := quietly (layer.readDirectory path handle)
  releaseDirectory path handle :=
    quietly (layer.releaseDirectory path handle)
  capacity path := quietly (layer.capacity path)
  create path mode := noting (.create mode) (layer.create path mode)
  openFile path access :=
    noting (.openFile access) (layer.openFile path access)
  release path handle := noting .release (layer.release path handle)
  read path handle offset length :=
    noting (.read offset length) (layer.read path handle offset length)
  write path handle offset data :=
    noting (.write offset data.length) (layer.write path handle offset data)
  truncate path handle size :=
    noting (.truncate size handle.isSome) (layer.truncate path handle size)
  fileSize path handle :=
    noting (.fileSize handle.isSome) (layer.fileSize path handle)
  logicalSize path handle reported :=
    quietly (layer.logicalSize path handle reported)
  attributes path handle :=
    noting (.attributes handle.isSome) (layer.attributes path handle)
  flush path handle := quietly (layer.flush path handle)
  sync path handle dataOnly := quietly (layer.sync path handle dataOnly)

theorem watched_mirrors
    (lower : Layer σ) :
    lower.watched.Mirrors Noted.state lower where
  create _ _ := Follows.noting _ _
  openFile _ _ := Follows.noting _ _
  release _ _ := Follows.noting _ _
  read _ _ _ _ := Follows.noting _ _
  write _ _ _ _ := Follows.noting _ _
  truncate _ _ _ := Follows.noting _ _
  fileSize _ _ := Follows.noting _ _
  attributes _ _ := Follows.noting _ _

/-- The aligning stage answers over a watched layer what it answers over the
layer itself, and leaves the same state behind. -/
theorem aligned_follows
    (size : BlockSize)
    (lower : Layer σ)
    (path : Path)
    (request : FileRequest) :
    Follows ((lower.watched.aligned size).perform path request)
      ((lower.aligned size).perform path request) :=
  (lower.watched_mirrors.aligned size).perform path request

end Layer

end Strata
