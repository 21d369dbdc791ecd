import Strata.Config
import Strata.Error
import Strata.Word

/-!
# Valid configurations

The rules that a configuration has to keep before a pipeline is assembled
from it, in the order in which a breach is reported.  A breach is a value, so
that it can be told apart from any other without looking at its wording.
-/

namespace Strata

/-- The capitalised name of a stage kind. -/
def StageKind.title :
    StageKind → String
  | .align => "Align"
  | .cipher => "Cipher"
  | .devices => "Devices"

/-- The capitalised name of a cipher mode. -/
def CipherMode.title :
    CipherMode → String
  | .null => "Null"
  | .nullPadded => "NullPadded"
  | .deterministic => "Deterministic"
  | .randomIv => "RandomIv"

/-- The capitalised name of a coder mode. -/
def CoderMode.title :
    CoderMode → String
  | .replicate => "Replicate"
  | .xor => "Xor"
  | .erasure => "Erasure"

namespace Config

/-- A rule that a configuration breaks. -/
inductive Breach where
  | blockSizeShape
  | blockSizeRange
  | noWorkers
  | devicesNotLast
  | stageTwice (kind : StageKind)
  | framingWithoutAlignment
  | noDevices
  | deviceCount (expected given : Nat)
  | xorTooFew
  | erasureShape
  | erasureCount (data parity given : Nat)
  | keyMissing (mode : CipherMode)
  deriving DecidableEq, Repr

/-- The wording of a breach. -/
def Breach.message :
    Breach → String
  | .blockSizeShape => "Block size must be a power of 2"
  | .blockSizeRange => "Block size must fit in 32 bits"
  | .noWorkers => "Worker pool needs at least one thread"
  | .devicesNotLast => "The devices layer must be the last layer"
  | .stageTwice kind => "Layer " ++ kind.title ++ " listed twice"
  | .framingWithoutAlignment =>
    "A framing cipher needs the align layer above it"
  | .noDevices => "At least one device path is required"
  | .deviceCount expected given =>
    "ndevs is " ++ toString expected ++ " but " ++ toString given ++
      " device paths were given"
  | .xorTooFew => "XOR coding needs at least 2 devices"
  | .erasureShape => "Erasure coding needs k >= 1 and m >= 1"
  | .erasureCount data parity given =>
    "Erasure coding with k=" ++ toString data ++ " m=" ++ toString parity ++
      " needs " ++ toString (wrapped (data + parity)) ++ " devices, got " ++
      toString given
  | .keyMissing mode =>
    "Cipher mode " ++ mode.title ++ " requires key material"

/-- Whether a number is a power of two. -/
def isPowerOfTwo
    (number : Nat) :
    Bool :=
  number != 0 && Nat.pow 2 number.log2 == number

/-- Whether a stage stands somewhere above another one. -/
def standsAbove
    (layers : List StageKind)
    (upper lower : StageKind) :
    Bool :=
  (layers.takeWhile (· != lower)).contains upper

/-- The first rule about the order of the stages that is broken. -/
def layersBreach?
    (config : Config) :
    Option Breach :=
  if config.layers.getLast? != some .devices then
    some .devicesNotLast
  else
    match [StageKind.align, .cipher, .devices].find?
        fun kind => config.layers.count kind > 1 with
    | some kind => some (.stageTwice kind)
    | none =>
      if config.cipher.mode != .null && config.hasStage .cipher &&
          !standsAbove config.layers .align .cipher then
        some .framingWithoutAlignment
      else
        none

/-- The first rule about the devices that is broken. -/
def devicesBreach?
    (config : Config) :
    Option Breach :=
  let given := config.deviceCount
  let shape := config.devices.erasure
  if given = 0 then
    some .noDevices
  else if config.devices.count.any (· != given) then
    some (.deviceCount (config.devices.count.getD given) given)
  else
    match config.devices.mode with
    | .replicate => none
    | .xor => if given < 2 then some .xorTooFew else none
    | .erasure =>
      if shape.data = 0 ∨ shape.parity = 0 then
        some .erasureShape
      else if wrapped (shape.data + shape.parity) ≠ given then
        some (.erasureCount shape.data shape.parity given)
      else
        none

/-- The first rule about the key that is broken. -/
def keyBreach?
    (config : Config) :
    Option Breach :=
  if config.hasStage .cipher && config.cipher.mode.encrypts &&
      config.cipher.key.isNone then
    some (.keyMissing config.cipher.mode)
  else
    none

/-- The first rule about numbers that is broken. -/
def numbersBreach?
    (config : Config) :
    Option Breach :=
  if !isPowerOfTwo config.blockSize then
    some .blockSizeShape
  else if config.blockSize ≥ Nat.pow 2 32 then
    some .blockSizeRange
  else if config.workerThreads = 0 then
    some .noWorkers
  else
    none

/-- The first rule that a configuration breaks. -/
def breach?
    (config : Config) :
    Option Breach :=
  config.numbersBreach?.or <|
    config.layersBreach?.or <|
      config.devicesBreach?.or config.keyBreach?

/-- Refuses a configuration that breaks a rule. -/
def validate
    (config : Config) :
    Except Error Unit :=
  match config.breach? with
  | some breach => .error (.config breach.message)
  | none => .ok ()

end Config

end Strata
