import Strata.Frame
import Strata.Latency
import Strata.Layer
import Strata.Tape

/-!
# Sessions

While a pipeline is up it works on what is stored below it, takes random bytes
from a tape, and times its stages.  A session holds these together; the type
of what is stored is left open, so that the same stages run over files in
memory and over device directories.
-/

namespace Strata

/-- What the stages of a pipeline work on. -/
structure Session
    (η : Type) where
  storage : η
  registry : Registry := []
  /-- The readings that the clock has given. -/
  ticks : Nat := 0
  tape : Tape := default

namespace Session

variable {η α : Type}

/-- An action on what is stored. -/
def onStorage
    (action : Action η α) :
    Action (Session η) α :=
  Action.ofRun fun session =>
    match session with
    | ⟨storage, registry, ticks, tape⟩ =>
      let (answer, storage) := action.execute storage
      (answer, ⟨storage, registry, ticks, tape⟩)

/-- Takes bytes from the tape. -/
def draw
    (count : Nat) :
    Action (Session η) Bytes :=
  Action.ofRun fun session =>
    let (bytes, tape) := session.tape.take count
    (.ok bytes, { session with tape })

/-- Takes a nonce from the tape. -/
def drawNonce :
    Action (Session η) Bytes :=
  draw Aead.nonceLength

/-- The meter that keeps its samples in the recorder with the given number.
Its clock moves on by a microsecond with each reading. -/
def meter
    (recorder : Nat) :
    Meter (Session η) where
  now session :=
    (session.ticks * 1000, { session with ticks := session.ticks + 1 })
  record operation nanoseconds session :=
    { session with
      registry := session.registry.record recorder operation nanoseconds }

end Session

/-- A layer over what is stored, as a layer over a session. -/
def Layer.onSession
    {η : Type}
    (layer : Layer η) :
    Layer (Session η) where
  names := layer.names
  makeDirectory path mode :=
    Session.onStorage (layer.makeDirectory path mode)
  removeDirectory path := Session.onStorage (layer.removeDirectory path)
  unlink path := Session.onStorage (layer.unlink path)
  rename source target := Session.onStorage (layer.rename source target)
  symlink target link := Session.onStorage (layer.symlink target link)
  readLink path := Session.onStorage (layer.readLink path)
  link existing added := Session.onStorage (layer.link existing added)
  changeMode path mode := Session.onStorage (layer.changeMode path mode)
  changeOwner path owner group :=
    Session.onStorage (layer.changeOwner path owner group)
  openDirectory path := Session.onStorage (layer.openDirectory path)
  readDirectory path handle :=
    Session.onStorage (layer.readDirectory path handle)
  releaseDirectory path handle :=
    Session.onStorage (layer.releaseDirectory path handle)
  capacity path := Session.onStorage (layer.capacity path)
  create path mode := Session.onStorage (layer.create path mode)
  openFile path access := Session.onStorage (layer.openFile path access)
  release path handle := Session.onStorage (layer.release path handle)
  read path handle offset length :=
    Session.onStorage (layer.read path handle offset length)
  write path handle offset data :=
    Session.onStorage (layer.write path handle offset data)
  truncate path handle size :=
    Session.onStorage (layer.truncate path handle size)
  fileSize path handle := Session.onStorage (layer.fileSize path handle)
  logicalSize path handle reported :=
    Session.onStorage (layer.logicalSize path handle reported)
  attributes path handle := Session.onStorage (layer.attributes path handle)
  flush path handle := Session.onStorage (layer.flush path handle)
  sync path handle dataOnly :=
    Session.onStorage (layer.sync path handle dataOnly)

end Strata
