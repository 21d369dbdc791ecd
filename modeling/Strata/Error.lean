import Strata.Error.Host

/-!
# Errors of the pipeline

Every stage answers with the same type of error, so that a request may fail
anywhere on its way and be reported as it is.  An error has one wording and
one error number; the call surface reports the negated number.
-/

namespace Strata

/-- What can go wrong while a request moves through the stages. -/
inductive Error where
  /-- The host failed outside of a fan-out. -/
  | host (cause : HostError)
  /-- The host failed on one device of a fan-out. -/
  | device (device : Nat) (cause : HostError)
  /-- A write would leave a hole before its first block. -/
  | alignment (path : String) (block extra size : Nat)
  /-- A device moved another number of bytes than the first one. -/
  | divergence (device expected found : Nat)
  /-- A block has no recorded place. -/
  | missingOffset (path : String) (offset : Nat)
  /-- A lower stage moved fewer bytes than a frame needs. -/
  | shortTransfer (expected actual : Nat)
  /-- A block could not be sealed, or a frame is no frame. -/
  | cipher (reason : String)
  /-- A sealed block does not open. -/
  | decryption
  /-- A passphrase could not be stretched into a key. -/
  | keyDerivation (reason : String)
  /-- The erasure code could not be applied. -/
  | erasure (reason : String)
  /-- The configuration is not valid. -/
  | config (reason : String)
  /-- The configuration file could not be read. -/
  | configLoad (path reason : String)
  /-- A text is no path. -/
  | invalidPath (reason : String)
  /-- A value could not be written down. -/
  | serialization (reason : String)
  /-- No stage from this one down has the operation. -/
  | unsupported (layer : String)
  /-- A worker stopped before it reported. -/
  | workerLost (device : Nat)
  /-- The program broke down, and no stage answers any more. -/
  | panicked (reason : String)
  deriving DecidableEq, Repr, Inhabited

namespace Error

/-- The name of the class of an error. -/
def title :
    Error → String
  | .host _ => "Io"
  | .device .. => "Device"
  | .alignment .. => "Alignment"
  | .divergence .. => "Divergence"
  | .missingOffset .. => "MissingOffset"
  | .shortTransfer .. => "ShortTransfer"
  | .cipher _ => "Cipher"
  | .decryption => "Decryption"
  | .keyDerivation _ => "KeyDerivation"
  | .erasure _ => "Erasure"
  | .config _ => "Config"
  | .configLoad .. => "ConfigLoad"
  | .invalidPath _ => "InvalidPath"
  | .serialization _ => "Serialization"
  | .unsupported _ => "Unsupported"
  | .workerLost _ => "WorkerLost"
  | .panicked _ => "Panic"

/-- The wording of an error. -/
def message :
    Error → String
  | .host cause => "I/O error: " ++ cause.message
  | .device index cause =>
    "device " ++ toString index ++ " failed: " ++ cause.message
  | .alignment path block extra size =>
    "alignment violation on " ++ path ++ ": block at " ++ toString block ++
      " (+" ++ toString extra ++ ") past end of file " ++ toString size
  | .divergence index expected found =>
    "device divergence: device 0 reported " ++ toString expected ++
      " bytes, device " ++ toString index ++ " reported " ++ toString found
  | .missingOffset path offset =>
    "no offset index entry for " ++ path ++ " at offset " ++ toString offset
  | .shortTransfer expected actual =>
    "short transfer: expected " ++ toString expected ++ " bytes, got " ++
      toString actual
  | .cipher reason => "Encryption error: " ++ reason
  | .decryption => "Decryption failed: wrong key or corrupted block"
  | .keyDerivation reason => "Key derivation error: " ++ reason
  | .erasure reason => "Erasure coding error: " ++ reason
  | .config reason => "Invalid configuration: " ++ reason
  | .configLoad path reason =>
    "Cannot load configuration from " ++ path ++ ": " ++ reason
  | .invalidPath reason => "Invalid path: " ++ reason
  | .serialization reason => "Serialization error: " ++ reason
  | .unsupported layer => "Operation not supported by layer " ++ layer
  | .workerLost index =>
    "worker for device " ++ toString index ++ " stopped before completing"
  | .panicked reason => reason

/-- The error that an error number stands in for when there is none. -/
def inputOutputNumber : Nat := 5

/-- The error number of an error. -/
def number :
    Error → Nat
  | .host cause => cause.number?.getD inputOutputNumber
  | .device _ cause => cause.number?.getD inputOutputNumber
  | .invalidPath _ => 22
  | .config _ => 22
  | .configLoad _ _ => 22
  | .unsupported _ => 38
  | _ => inputOutputNumber

/-- Whether an error says that the path does not exist. -/
def isNotFound
    (error : Error) :
    Bool :=
  error.number == 2

/-- The host error behind an error, if it has one. -/
def cause? :
    Error → Option HostError
  | .host cause => some cause
  | .device _ cause => some cause
  | _ => none

end Error

/-- The signed status of a transfer: the count, or the negated number. -/
def status :
    Except Error Nat → Int
  | .ok count => count
  | .error error => -error.number

/-- The signed status of an operation without a count. -/
def unitStatus :
    Except Error Unit → Int
  | .ok () => 0
  | .error error => -error.number

/--
A step that may fail, over a state.  The state that a failing step reached is
kept, because what was stored before the failure stays stored.
-/
abbrev Action
    (σ : Type) :=
  ExceptT Error (StateM σ)

namespace Action

variable {σ α : Type}

/-- Runs an action from a state to its answer and the state it leaves. -/
def execute
    (action : Action σ α)
    (state : σ) :
    Except Error α × σ :=
  StateT.run (ExceptT.run action) state

/-- The action given by what it does to a state. -/
def ofRun
    (step : σ → Except Error α × σ) :
    Action σ α :=
  ExceptT.mk step

@[simp]
theorem execute_ofRun
    (step : σ → Except Error α × σ)
    (state : σ) :
    execute (ofRun step) state = step state :=
  rfl

/-- Lifts a fallible value. -/
def ofExcept
    (value : Except Error α) :
    Action σ α :=
  ofRun fun state => (value, state)

/-- The answer of an action, with its failure as a value. -/
def attempt
    (action : Action σ α) :
    Action σ (Except Error α) :=
  ofRun fun state =>
    let (answer, reached) := action.execute state
    (.ok answer, reached)

@[simp]
theorem execute_attempt
    (action : Action σ α)
    (state : σ) :
    (attempt action).execute state =
      (.ok (action.execute state).1, (action.execute state).2) :=
  rfl

/--
Runs `body`, then `closing` whatever `body` answered.  A failure of `body` is
reported in preference to a failure of `closing`.
-/
def finallyDo
    (body : Action σ α)
    (closing : Action σ Unit) :
    Action σ α := do
  let answer ← attempt body
  let closed ← attempt closing
  let value ← ofExcept answer
  ofExcept closed
  return value

end Action

end Strata
