import Strata.Config
import Strata.Json.Writing

/-!
# Writing configurations

Every field of a configuration is written, in a fixed order; what is absent is
written as null.
-/

namespace Strata

/-- The name of a stage kind in a configuration. -/
def StageKind.name :
    StageKind → String
  | .align => "align"
  | .cipher => "cipher"
  | .devices => "devices"

/-- The name of a cipher mode in a configuration. -/
def CipherMode.name :
    CipherMode → String
  | .null => "null"
  | .nullPadded => "null_padded"
  | .deterministic => "deterministic"
  | .randomIv => "random_iv"

/-- The name of a coder mode in a configuration. -/
def CoderMode.name :
    CoderMode → String
  | .replicate => "replicate"
  | .xor => "xor"
  | .erasure => "erasure"

namespace Config

/-- A natural number. -/
def encodeNat
    (number : Nat) :
    Json :=
  .integer number

/-- Key material. -/
def encodeKey :
    KeyMaterial → Json
  | .hex digits => .ofFields [("hex", .string digits)]
  | .passphrase passphrase salt =>
    .ofFields
      [("passphrase",
        .ofFields
          [("passphrase", .string passphrase), ("salt", .string salt)])]
  | .prompt salt =>
    .ofFields [("prompt", .ofFields [("salt", .string salt)])]

/-- The configuration of the cipher stage. -/
def encodeCipher
    (config : CipherConfig) :
    Json :=
  .ofFields
    [("mode", .string config.mode.name),
      ("key", .ofOption (config.key.map encodeKey)),
      ("iv", .ofOption (config.iv.map .string))]

/-- The configuration of the devices. -/
def encodeDevices
    (config : DeviceConfig) :
    Json :=
  .ofFields
    [("mode", .string config.mode.name),
      ("paths", .ofItems (config.paths.map .string)),
      ("ndevs", .ofOption (config.count.map encodeNat)),
      ("erasure",
        .ofFields
          [("k", encodeNat config.erasure.data),
            ("m", encodeNat config.erasure.parity)])]

/-- A configuration. -/
def encode
    (config : Config) :
    Json :=
  .ofFields
    [("block_size", encodeNat config.blockSize),
      ("layers",
        .ofItems (config.layers.map fun kind => .string kind.name)),
      ("cipher", encodeCipher config.cipher),
      ("devices", encodeDevices config.devices),
      ("worker_threads", encodeNat config.workerThreads),
      ("latency_dump_dir", .ofOption (config.latencyDirectory.map .string)),
      ("log_level", .ofOption (config.logLevel.map .string))]

/-- The text of a configuration. -/
def toText
    (config : Config) :
    String :=
  config.encode.write

end Config

end Strata
