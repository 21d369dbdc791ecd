import Strata.Config
import Strata.Crypto.Argon2
import Strata.Crypto.Sha256
import Strata.Error
import Strata.Text.Blank
import Strata.Text.Hexadecimal

/-!
# Keys

The cipher key is thirty-two bytes.  It stands in the configuration in
hexadecimal, or it is stretched from a passphrase and a salt; the passphrase
may be asked for.  The nonce of the deterministic mode is configured as well,
or derived from the key.
-/

namespace Strata

/-- The salt that a passphrase is stretched with. -/
structure Salt where
  bytes : Bytes
  deriving DecidableEq, Repr

namespace Salt

/-- The fewest bytes that a salt has. -/
def minLength : Nat := 8

/-- The salt of the given bytes, if they are enough. -/
def ofBytes
    (bytes : Bytes) :
    Except Error Salt :=
  if bytes.length < minLength then
    .error (.keyDerivation
      ("salt of " ++ toString bytes.length ++ " bytes, need " ++
        toString minLength))
  else
    .ok ⟨bytes⟩

/-- The salt as it stands in a configuration. -/
def parse
    (digits : String) :
    Except Error Salt :=
  match Text.Hexadecimal.parse digits with
  | .error fault => .error (.keyDerivation fault.message)
  | .ok bytes => ofBytes bytes

/-- The form of a salt in a configuration. -/
def render
    (salt : Salt) :
    String :=
  Text.Hexadecimal.render salt.bytes

/-- The key that a passphrase is stretched into: three passes over 64 MiB in
four lanes. -/
def stretch
    (salt : Salt)
    (passphrase : String) :
    Bytes :=
  Argon2.stretch ⟨4, 3, 4096⟩ 32 passphrase.toUTF8.toList salt.bytes

end Salt

namespace Key

/-- The length of a key. -/
def length : Nat := 32

/-- The length of a nonce. -/
def nonceLength : Nat := 12

/-- Reads `length` bytes in hexadecimal, with blanks around them; `subject` is
what they are called when they are refused. -/
def parseBytes
    (subject : String)
    (length : Nat)
    (digits : String) :
    Except Error Bytes :=
  match Text.Hexadecimal.parse (Text.trim digits) with
  | .error fault =>
    .error (.config ("invalid hex " ++ subject ++ ": " ++ fault.message))
  | .ok bytes =>
    if bytes.length = length then
      .ok bytes
    else
      .error (.config
        (subject ++ " must be " ++ toString length ++ " bytes, got " ++
          toString bytes.length))

/-- What a passphrase is asked for with. -/
def promptText : String := "Passphrase: "

/-- The key of configured material.  The passphrase is asked for only when
the salt is good. -/
def resolve
    (ask : String → Except Error String) :
    KeyMaterial → Except Error Bytes
  | .hex digits => parseBytes "key" length digits
  | .passphrase passphrase salt => do
    let salt ← Salt.parse salt
    return salt.stretch passphrase
  | .prompt salt => do
    let salt ← Salt.parse salt
    let passphrase ← ask promptText
    return salt.stretch passphrase

/-- What is hashed before the key when a nonce is derived from it. -/
def nonceContext : Bytes :=
  "LAYERFS_DETERMINISTIC_IV_V1".toUTF8.toList

/-- The nonce of the deterministic mode: the configured one, or else the first
bytes of a hash of the key. -/
def deterministicNonce
    (key : Bytes) :
    Option String → Except Error Bytes
  | some digits => parseBytes "iv" nonceLength digits
  | none => .ok ((Sha256.hash (nonceContext ++ key)).take nonceLength)

end Key

end Strata
