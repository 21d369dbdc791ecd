import Strata.Bytes

/-!
# Authenticated encryption

A sealed block is the plain block under a key stream, followed by a tag of
sixteen bytes that depends on the encrypted bytes.  Opening recomputes the
tag and refuses when it differs.  A cipher is given by its key stream and its
tag; `decrypt?_encrypt` and `decrypt?_eq_some_iff` say that opening accepts exactly
what sealing makes.
-/

namespace Strata

/-- A cipher under a fixed key. -/
structure Aead where
  /-- The key stream of a nonce, cut to a length. -/
  stream : (nonce : Bytes) → (length : Nat) → Bytes
  /-- The tag of encrypted bytes under a nonce. -/
  tag : (nonce encrypted : Bytes) → Bytes
  length_stream : ∀ nonce length, (stream nonce length).length = length
  length_tag : ∀ nonce encrypted, (tag nonce encrypted).length = 16

namespace Aead

/-- The length of a tag. -/
def tagLength : Nat := 16

/-- The length of a nonce. -/
def nonceLength : Nat := 12

variable
  (cipher : Aead)
  (nonce : Bytes)

/-- Adds or takes off the key stream. -/
def crypt
    (bytes : Bytes) :
    Bytes :=
  Bytes.xor bytes (cipher.stream nonce bytes.length)

/-- The encrypted block with its tag behind it. -/
def encrypt
    (block : Bytes) :
    Bytes :=
  let encrypted := cipher.crypt nonce block
  encrypted ++ cipher.tag nonce encrypted

/-- The block in a sealed string, unless the tag does not fit. -/
def decrypt?
    (sealed : Bytes) :
    Option Bytes :=
  let encrypted := sealed.take (sealed.length - tagLength)
  let tag := sealed.drop (sealed.length - tagLength)
  if tagLength ≤ sealed.length ∧ cipher.tag nonce encrypted = tag then
    some (cipher.crypt nonce encrypted)
  else
    none

@[simp]
theorem length_crypt
    (bytes : Bytes) :
    (cipher.crypt nonce bytes).length = bytes.length := by
  simp [crypt, cipher.length_stream]

theorem xor_xor_cancel
    (bytes stream : Bytes)
    (long : bytes.length ≤ stream.length) :
    Bytes.xor (Bytes.xor bytes stream) stream = bytes := by
  induction bytes generalizing stream with
  | nil => simp [Bytes.xor]
  | cons byte rest ih =>
    cases stream with
    | nil => simp at long
    | cons mask others =>
      have head : byte ^^^ mask ^^^ mask = byte := by
        rw [UInt8.xor_assoc, UInt8.xor_self, UInt8.xor_zero]
      have tail := ih others (by simpa using long)
      exact List.cons_eq_cons.mpr ⟨head, tail⟩

theorem crypt_crypt
    (bytes : Bytes) :
    cipher.crypt nonce (cipher.crypt nonce bytes) = bytes := by
  have same := cipher.length_crypt nonce bytes
  rw [crypt, same, crypt]
  exact xor_xor_cancel _ _ (by simp [cipher.length_stream])

@[simp]
theorem length_encrypt
    (block : Bytes) :
    (cipher.encrypt nonce block).length = block.length + tagLength := by
  simp [encrypt, cipher.length_tag, tagLength]

theorem decrypt?_encrypt
    (block : Bytes) :
    cipher.decrypt? nonce (cipher.encrypt nonce block) = some block := by
  have size := cipher.length_encrypt nonce block
  simp only [decrypt?, size, Nat.add_sub_cancel]
  have encrypted :
      (cipher.encrypt nonce block).take block.length =
        cipher.crypt nonce block := by
    simp [encrypt]
  have tag :
      (cipher.encrypt nonce block).drop block.length =
        cipher.tag nonce (cipher.crypt nonce block) := by
    simp [encrypt]
  rw [encrypted, tag]
  simp [crypt_crypt]

theorem decrypt?_eq_some_iff
    (sealed block : Bytes) :
    cipher.decrypt? nonce sealed = some block ↔
      sealed = cipher.encrypt nonce block := by
  constructor
  · intro opened
    simp only [decrypt?] at opened
    split at opened
    · rename_i fits
      obtain rfl := Option.some.inj opened
      simp [encrypt, crypt_crypt, fits.2]
    · simp at opened
  · rintro rfl
    exact decrypt?_encrypt cipher nonce block

end Aead

end Strata
