import Strata.BlockSize
import Strata.Crypto.Gcm
import Strata.Key
import Strata.Word

/-!
# Frames

The cipher stage stores each logical block as one frame.  The four schemes
differ in what a frame holds beside the payload:

* nothing at all,
* sixteen zeros,
* a tag, where every block is encrypted under the same nonce,
* a tag and the nonce, where every block has a nonce of its own.

All frames but the last have the same length, so that the place of a frame and
the size of the stored file follow from the logical ones.  They are computed in
words, so that a frame whose place is no word is led to another one.  The way
back needs a look at the last frame when blocks are encrypted.
-/

namespace Strata

/-- How blocks are framed. -/
inductive Scheme where
  | null
  | nullPadded
  | deterministic (cipher : Aead) (nonce : Bytes)
  | randomIv (cipher : Aead)

/-- A scheme together with the size of a full block. -/
structure Framer where
  size : BlockSize
  scheme : Scheme

namespace Framer

/-- The length of the padding of a padded frame. -/
def padLength : Nat := 16

/-- The framer that a configuration asks for.  A key is resolved only when
blocks are encrypted. -/
def ofConfig
    (size : BlockSize)
    (config : CipherConfig)
    (ask : String → Except Error String) :
    Except Error Framer :=
  let key : Except Error Bytes :=
    match config.key with
    | none => .error (.config "encrypting cipher modes need a key")
    | some material => Key.resolve ask material
  match config.mode with
  | .null => .ok ⟨size, .null⟩
  | .nullPadded => .ok ⟨size, .nullPadded⟩
  | .deterministic => do
    let key ← key
    let nonce ← Key.deterministicNonce key config.iv
    return ⟨size, .deterministic (Gcm.aead key) nonce⟩
  | .randomIv => do
    let key ← key
    return ⟨size, .randomIv (Gcm.aead key)⟩

variable (framer : Framer)

/-- The mode that asks for this framer. -/
def mode :
    CipherMode :=
  match framer.scheme with
  | .null => .null
  | .nullPadded => .nullPadded
  | .deterministic _ _ => .deterministic
  | .randomIv _ => .randomIv

/-- The bytes that a frame holds beside its payload. -/
def overhead :
    Nat :=
  match framer.scheme with
  | .null => 0
  | .nullPadded => padLength
  | .deterministic _ _ => Aead.tagLength
  | .randomIv _ => Aead.tagLength + Aead.nonceLength

/-- The length of a full frame. -/
def stride :
    Nat :=
  framer.size.bytes + framer.overhead

/-- The length of the frame of `length` bytes. -/
def storedLength
    (length : Nat) :
    Nat :=
  length + framer.overhead

/-- Where the frame of the block at a logical offset is looked for. -/
def storedOffset
    (offset : Nat) :
    Nat :=
  match framer.scheme with
  | .null => offset
  | _ => wrapped (offset / framer.size.bytes * framer.stride)

/-- The length of the frames of `size` logical bytes, one behind the other. -/
def rowLength
    (size : Nat) :
    Nat :=
  let rest := size % framer.size.bytes
  size / framer.size.bytes * framer.stride +
    if 0 < rest then rest + framer.overhead else 0

/-- The size that a stored file is given so that it holds `size` logical
bytes. -/
def storedSize
    (size : Nat) :
    Nat :=
  match framer.scheme with
  | .null => size
  | _ => wrapped (framer.rowLength size)

/-- The frame of a block.  The nonce is used by frames that hold one. -/
def encode
    (nonce block : Bytes) :
    Bytes :=
  match framer.scheme with
  | .null => block
  | .nullPadded => block ++ Bytes.zeros padLength
  | .deterministic cipher fixed => cipher.encrypt fixed block
  | .randomIv cipher => cipher.encrypt nonce block ++ nonce

/-- The block of a frame.  The logical position only goes into the wording of
an error. -/
def decode
    (position : Nat)
    (frame : Bytes) :
    Except Error Bytes :=
  match framer.scheme with
  | .null => .ok frame
  | .nullPadded =>
    if frame.length < padLength then
      .error (.cipher
        ("padded frame at " ++ toString position ++
          " shorter than its padding"))
    else
      .ok (frame.take (frame.length - padLength))
  | .deterministic cipher fixed =>
    ((cipher.decrypt? fixed frame).elim (.error .decryption) .ok)
  | .randomIv cipher =>
    if frame.length < Aead.tagLength + Aead.nonceLength then
      .error .decryption
    else
      let cut := frame.length - Aead.nonceLength
      ((cipher.decrypt? (frame.drop cut) (frame.take cut)).elim
        (.error .decryption) .ok)

/-- The frame of a block, with a nonce drawn for it if it needs one. -/
def frameWith
    {σ : Type}
    (draw : Action σ Bytes)
    (block : Bytes) :
    Action σ Bytes :=
  match framer.scheme with
  | .randomIv _ => do
    let nonce ← draw
    return framer.encode nonce block
  | _ => return framer.encode [] block

/--
The logical size of a stored file.  When blocks are encrypted and the last
frame is not full, `readFrame` is asked for it, and the block in it is as long
as it decodes to.
-/
def logicalSize
    {σ : Type}
    (readFrame : (offset length : Nat) → Action σ Bytes)
    (stored : Nat) :
    Action σ Nat :=
  let full := stored / framer.stride
  let last := stored % framer.stride
  match framer.scheme with
  | .null => return stored
  | .nullPadded =>
    let frames := if 0 < last then full + 1 else full
    return stored - frames * padLength
  | _ =>
    if last = 0 then
      return full * framer.size.bytes
    else do
      let offset := full * framer.stride
      let frame ← readFrame offset last
      if frame.length < last then
        throw (.shortTransfer last frame.length)
      let block ← Action.ofExcept (framer.decode offset frame)
      return full * framer.size.bytes + block.length

theorem stride_pos :
    0 < framer.stride := by
  have := framer.size.positive
  unfold stride
  omega

end Framer

end Strata
