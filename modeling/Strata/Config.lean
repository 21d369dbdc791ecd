/-!
# Configuration of a pipeline

A configuration names the stages of a pipeline from the top down, the cipher,
the devices with their coding, and the size of the worker pool.  Every part
has a default, so that a list of device directories alone is a configuration.
-/

namespace Strata

/-- One kind of stage. -/
inductive StageKind where
  /-- Block alignment. -/
  | align
  /-- Framing of each block by a cipher. -/
  | cipher
  /-- The devices, always at the bottom. -/
  | devices
  deriving DecidableEq, Repr, Inhabited

/-- How a block is framed. -/
inductive CipherMode where
  | null
  | nullPadded
  | deterministic
  | randomIv
  deriving DecidableEq, Repr, Inhabited

/-- Whether blocks are encrypted. -/
def CipherMode.encrypts :
    CipherMode → Bool
  | .null => false
  | .nullPadded => false
  | .deterministic => true
  | .randomIv => true

/-- How a block is spread over the devices. -/
inductive CoderMode where
  | replicate
  | xor
  | erasure
  deriving DecidableEq, Repr, Inhabited

/-- Where the cipher key comes from. -/
inductive KeyMaterial where
  /-- The key itself, in hexadecimal. -/
  | hex (digits : String)
  /-- A passphrase to be stretched with a salt in hexadecimal. -/
  | passphrase (passphrase salt : String)
  /-- A passphrase that is asked for, and the salt to stretch it with. -/
  | prompt (salt : String)
  deriving DecidableEq, Repr, Inhabited

/-- Configuration of the cipher stage. -/
structure CipherConfig where
  mode : CipherMode := .null
  key : Option KeyMaterial := none
  /-- The nonce of the deterministic mode in hexadecimal; without it the nonce
  is derived from the key. -/
  iv : Option String := none
  deriving DecidableEq, Repr, Inhabited

/-- The numbers of shards of the erasure code. -/
structure ErasureShape where
  data : Nat := 2
  parity : Nat := 1
  deriving DecidableEq, Repr, Inhabited

/-- Configuration of the devices. -/
structure DeviceConfig where
  mode : CoderMode := .replicate
  /-- The root directory of each device. -/
  paths : List String := []
  /-- The number of devices that is expected, if it is to be checked. -/
  count : Option Nat := none
  erasure : ErasureShape := {}
  deriving DecidableEq, Repr, Inhabited

/-- Everything that a pipeline is assembled from. -/
structure Config where
  blockSize : Nat := 4096
  /-- The stages, the topmost first. -/
  layers : List StageKind := [.align, .cipher, .devices]
  cipher : CipherConfig := {}
  devices : DeviceConfig := {}
  workerThreads : Nat := 10
  /-- The directory that receives the latency samples at shutdown. -/
  latencyDirectory : Option String := none
  logLevel : Option String := none
  deriving DecidableEq, Repr, Inhabited

namespace Config

/-- The default configuration over the given device directories. -/
def ofPaths
    (paths : List String) :
    Config :=
  { devices := { paths } }

/-- The number of devices. -/
def deviceCount
    (config : Config) :
    Nat :=
  config.devices.paths.length

/-- Whether a stage is part of the pipeline. -/
def hasStage
    (config : Config)
    (kind : StageKind) :
    Bool :=
  config.layers.contains kind

/-- Whether a passphrase has to be asked for. -/
def asks
    (config : Config) :
    Bool :=
  match config.cipher.key with
  | some (.prompt _) => config.cipher.mode.encrypts
  | _ => false

/-- The directories that a pipeline works in. -/
def places
    (config : Config) :
    List String :=
  config.devices.paths ++ config.latencyDirectory.toList

/-- Sets the cipher mode together with its key. -/
def withCipher
    (config : Config)
    (mode : CipherMode)
    (key : Option KeyMaterial) :
    Config :=
  { config with cipher := { config.cipher with mode, key } }

end Config

end Strata
