import Strata.Proofs.CipherStage

/-!
# What opens

A frame that was made of a block opens to the block, in every scheme.  Where
blocks are encrypted nothing else opens: the only string that opens to a block
is the frame that is made of it, with the nonce that the scheme fixes or with
the one that the string ends in, and all other strings are refused alike.
-/

namespace Strata.Framer

variable
  (framer : Framer)
  {position : Nat}
  {frame : Bytes}

/-- A fixed nonce is used whatever nonce is given. -/
theorem encode_of_deterministic
    (fixed : framer.mode = .deterministic)
    (first second block : Bytes) :
    framer.encode first block = framer.encode second block := by
  unfold mode at fixed
  unfold encode
  cases scheme : framer.scheme with
  | deterministic cipher nonce => rfl
  | _ => simp [scheme] at fixed

/-- Where blocks are encrypted, what no block is framed as is refused. -/
theorem decode_of_foreign
    (encrypts : framer.Encrypts)
    (foreign : ∀ block, frame ≠ framer.encode (heldNonce frame) block) :
    framer.decode position frame = .error .decryption := by
  rcases framer.exists_decode_or encrypts position frame with
    ⟨block, opened⟩ | refused
  · exact absurd ((framer.decode_eq_ok_iff encrypts).mp opened) (foreign block)
  · exact refused

/--
A frame is longer than its block by the overhead, and opens to it, whatever
nonce it was made with; so does the frame that is made with a nonce from the
tape.  Where blocks are encrypted a string opens to a block just when it is the
frame of the block, with the fixed nonce or with the one in its last bytes.
Every other string, of any length, is refused as a failed decryption.
-/
theorem frames_exact
    {η : Type}
    (session : Session η)
    (position : Nat) :
    (∀ nonce block : Bytes, nonce.length = Aead.nonceLength →
      (framer.encode nonce block).length = block.length + framer.overhead ∧
        framer.decode position (framer.encode nonce block) = .ok block) ∧
      (∀ block, ∃ nonce, nonce.length = Aead.nonceLength ∧
        (framer.frameWith Session.drawNonce block).Answers session
          (framer.encode nonce block)
          (fun reached => reached.storage = session.storage)) ∧
      (framer.mode = .deterministic → ∀ nonce frame,
        (∀ block, framer.decode position frame = .ok block ↔
          frame = framer.encode nonce block) ∧
        ((∀ block, frame ≠ framer.encode nonce block) →
          framer.decode position frame = .error .decryption)) ∧
      (framer.mode = .randomIv → ∀ frame,
        (∀ block, framer.decode position frame = .ok block ↔
          frame = framer.encode (heldNonce frame) block) ∧
        ((∀ block, frame ≠ framer.encode (heldNonce frame) block) →
          framer.decode position frame = .error .decryption)) := by
  refine ⟨?_, ?_, ?_, ?_⟩
  · intro nonce block fits
    have isFrame : framer.IsFrame (framer.encode nonce block) block :=
      ⟨nonce, fits, rfl⟩
    exact ⟨isFrame.length, isFrame.decode position⟩
  · intro block
    let Unchanged : Bytes → η → Prop := fun _ storage =>
      storage = session.storage
    have unchanged : Unchanged [] session.storage := rfl
    rcases Layer.frameWith_answers framer block unchanged with
      ⟨frame, ⟨nonce, fits, rfl⟩, answers⟩
    exact ⟨nonce, fits, answers⟩
  · intro fixed nonce frame
    have same := framer.encode_of_deterministic fixed nonce (heldNonce frame)
    refine ⟨fun block => ?_, fun foreign => ?_⟩
    · rw [framer.decode_eq_ok_iff (.inl fixed), same]
    · refine framer.decode_of_foreign (.inl fixed) fun block => ?_
      rw [← same]
      exact foreign block
  · intro drawn frame
    exact ⟨fun block => framer.decode_eq_ok_iff (.inr drawn),
      framer.decode_of_foreign (.inr drawn)⟩

/-- Both encrypting schemes open what they seal and refuse the empty string. -/
theorem frames_exact_of_gcm :
    let fixed : Framer :=
      ⟨⟨16, by decide⟩,
        .deterministic (Gcm.aead (Bytes.zeros 32)) (Bytes.zeros 12)⟩
    let drawn : Framer :=
      ⟨⟨16, by decide⟩, .randomIv (Gcm.aead (Bytes.zeros 32))⟩
    (fixed.encode [] [1, 2, 3]).length = 19 ∧
      fixed.decode 0 (fixed.encode [] [1, 2, 3]) = .ok [1, 2, 3] ∧
      fixed.decode 0 [] = .error .decryption ∧
      (drawn.encode (Bytes.zeros 12) [1, 2, 3]).length = 31 ∧
      drawn.decode 0 (drawn.encode (Bytes.zeros 12) [1, 2, 3]) =
        .ok [1, 2, 3] ∧
      drawn.decode 0 [] = .error .decryption := by
  intro fixed drawn
  have sealing := fixed.frames_exact ({ storage := () } : Session Unit) 0
  have drawing := drawn.frames_exact ({ storage := () } : Session Unit) 0
  rcases sealing.1 (Bytes.zeros 12) [1, 2, 3] rfl with ⟨long, opens⟩
  rcases drawing.1 (Bytes.zeros 12) [1, 2, 3] rfl with ⟨longer, opened⟩
  refine ⟨long, opens, ?_, longer, opened, ?_⟩
  · refine (sealing.2.2.1 rfl [] []).2 fun block empty => ?_
    have tagged := fixed.tagLength_le_encode (.inl rfl) [] block
    rw [← empty] at tagged
    exact absurd tagged (by decide)
  · refine (drawing.2.2.2 rfl []).2 fun block empty => ?_
    have tagged := drawn.tagLength_le_encode (.inr rfl) (heldNonce []) block
    rw [← empty] at tagged
    exact absurd tagged (by decide)

end Strata.Framer
