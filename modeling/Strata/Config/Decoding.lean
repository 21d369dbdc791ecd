import Strata.Config.Validity
import Strata.Error.Host
import Strata.Json.Decoding
import Strata.Json.Reading

/-!
# Reading configurations

A configuration is a JSON record in which every part may be left out.  The
file has to be text, the text has to be JSON, the JSON has to be a
configuration, and the configuration has to be valid; the first of these that
fails is reported.
-/

namespace Strata.Config

open Json (Decoder Fault)

/-- A natural number of 64 bits. -/
def word : Decoder Nat :=
  Json.natural "u64"

/-- A number of things. -/
def quantity : Decoder Nat :=
  Json.natural "usize"

/-- A text. -/
def text : Decoder String :=
  Json.text "a string"

/-- A path of the host. -/
def hostPath : Decoder String :=
  Json.text "path string"

/-- A kind of stage. -/
def stageKind : Decoder StageKind :=
  Json.choice
    [Json.plain "align" .align, Json.plain "cipher" .cipher,
      Json.plain "devices" .devices]

/-- A cipher mode. -/
def cipherMode : Decoder CipherMode :=
  Json.choice
    [Json.plain "null" .null, Json.plain "null_padded" .nullPadded,
      Json.plain "deterministic" .deterministic,
      Json.plain "random_iv" .randomIv]

/-- A coder mode. -/
def coderMode : Decoder CoderMode :=
  Json.choice
    [Json.plain "replicate" .replicate, Json.plain "xor" .xor,
      Json.plain "erasure" .erasure]

/-- A passphrase and its salt. -/
def passphraseParts : Decoder (String × String) :=
  Json.record "struct variant KeyMaterial::Passphrase"
    [{ name := "passphrase"
       required := true
       set := fun parts value => return (← text value, parts.2) },
      { name := "salt"
        required := true
        set := fun parts value => return (parts.1, ← text value) }]
    ("", "")

/-- The salt of a passphrase that is asked for. -/
def promptParts : Decoder String :=
  Json.record "struct variant KeyMaterial::Prompt"
    [{ name := "salt", required := true, set := fun _ value => text value }]
    ""

/-- Key material. -/
def keyMaterial : Decoder KeyMaterial :=
  Json.choice
    [Json.carrying "hex" "newtype variant" fun value =>
        (text value).map .hex,
      Json.carrying "passphrase" "struct variant" fun value =>
        (passphraseParts value).map fun (passphrase, salt) =>
          .passphrase passphrase salt,
      Json.carrying "prompt" "struct variant" fun value =>
        (promptParts value).map .prompt]

/-- The configuration of the cipher stage. -/
def cipherConfig : Decoder CipherConfig :=
  Json.record "struct CipherConfig"
    [{ name := "mode"
       required := true
       set := fun config value =>
         return { config with mode := ← cipherMode value } },
      { name := "key"
        required := false
        set := fun config value =>
          return { config with key := ← Json.optional keyMaterial value } },
      { name := "iv"
        required := false
        set := fun config value =>
          return { config with iv := ← Json.optional text value } }]
    {}

/-- The numbers of shards. -/
def erasureShape : Decoder ErasureShape :=
  Json.record "struct ErasureParams"
    [{ name := "k"
       required := true
       set := fun shape value =>
         return { shape with data := ← quantity value } },
      { name := "m"
        required := true
        set := fun shape value =>
          return { shape with parity := ← quantity value } }]
    {}

/-- The configuration of the devices. -/
def deviceConfig : Decoder DeviceConfig :=
  Json.record "struct DeviceConfig"
    [{ name := "mode"
       required := true
       set := fun config value =>
         return { config with mode := ← coderMode value } },
      { name := "paths"
        required := true
        set := fun config value =>
          return { config with paths := ← Json.list hostPath value } },
      { name := "ndevs"
        required := false
        set := fun config value =>
          return { config with count := ← Json.optional quantity value } },
      { name := "erasure"
        required := false
        set := fun config value =>
          return { config with erasure := ← erasureShape value } }]
    {}

/-- The fields of a configuration. -/
def fields : List (Json.Field Config) :=
  [{ name := "block_size"
     required := false
     set := fun config value =>
       return { config with blockSize := ← word value } },
    { name := "layers"
      required := false
      set := fun config value =>
        return { config with layers := ← Json.list stageKind value } },
    { name := "cipher"
      required := false
      set := fun config value =>
        return { config with cipher := ← cipherConfig value } },
    { name := "devices"
      required := false
      set := fun config value =>
        return { config with devices := ← deviceConfig value } },
    { name := "worker_threads"
      required := false
      set := fun config value =>
        return { config with workerThreads := ← quantity value } },
    { name := "latency_dump_dir"
      required := false
      set := fun config value =>
        return { config with
          latencyDirectory := ← Json.optional hostPath value } },
    { name := "log_level"
      required := false
      set := fun config value =>
        return { config with logLevel := ← Json.optional text value } }]

/-- A configuration. -/
def decode : Decoder Config :=
  Json.record "struct PipelineConfig" fields {}

/-- Reads the text of a configuration, valid or not. -/
def ofText
    (text : String) :
    Except Fault Config := do
  let (value, complete) := Json.read text
  let config ← decode value
  Json.close complete
  return config

/-- Why a configuration file cannot be used. -/
inductive LoadFault where
  | unreadable (reason : String)
  | unusable (fault : Fault)
  | invalid (breach : Breach)
  deriving DecidableEq, Repr

/-- Reads the bytes of a configuration file. -/
def load
    (contents : Except HostError (List UInt8)) :
    Except LoadFault Config :=
  match contents with
  | .error cause => .error (.unreadable cause.message)
  | .ok bytes =>
    match String.fromUTF8? ⟨bytes.toArray⟩ with
    | none =>
      .error (.unreadable "stream did not contain valid UTF-8")
    | some text =>
      match ofText text with
      | .error fault => .error (.unusable fault)
      | .ok config =>
        match config.breach? with
        | some breach => .error (.invalid breach)
        | none => .ok config

/-- The error that a fault of the file at a path is reported as. -/
def LoadFault.toError
    (path : String) :
    LoadFault → Error
  | .unreadable reason => .configLoad path reason
  | .unusable .malformed => .configLoad path "malformed JSON"
  | .unusable (.mismatch reason) => .configLoad path reason
  | .invalid breach => .config breach.message

end Strata.Config
