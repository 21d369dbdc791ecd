import Mathlib.Data.List.Forall2
import Mathlib.Order.MinMax
import Strata.Frame
import Strata.Proofs.Ranges

/-!
# Rows of frames

What the cipher stage stores of a byte string is a row of frames, one for each
block of the string.  All frames but the last have the same length, so the row
may also be looked at slot by slot: a slot lies at the same multiple of the
frame length as its block lies at of the block size.  The two views are proved
to agree, and writing one slot or cutting the row is followed in the second.

A cut inside a block leaves a row whose last frame is torn.  Writing that
block again mends it.
-/

namespace Strata.Framer

/-! ## Frames -/

/-- A string is a frame of a block, whatever nonce was drawn for it. -/
def IsFrame
    (framer : Framer)
    (frame block : Bytes) :
    Prop :=
  ∃ nonce, nonce.length = Aead.nonceLength ∧
    frame = framer.encode nonce block

namespace IsFrame

variable
  {framer : Framer}
  {frame payload : Bytes}

theorem length
    (isFrame : framer.IsFrame frame payload) :
    frame.length = framer.storedLength payload.length := by
  rcases isFrame with ⟨nonce, fits, rfl⟩
  unfold encode storedLength overhead
  split <;> simp [fits, padLength, Nat.add_assoc]

theorem decode
    (isFrame : framer.IsFrame frame payload)
    (position : Nat) :
    framer.decode position frame = .ok payload := by
  rcases isFrame with ⟨nonce, fits, rfl⟩
  unfold encode Framer.decode
  cases framer.scheme with
  | null => rfl
  | nullPadded => simp
  | deterministic cipher fixed =>
      simp [cipher.decrypt?_encrypt]
  | randomIv cipher =>
      have cut : (cipher.encrypt nonce payload ++ nonce).length -
          Aead.nonceLength = (cipher.encrypt nonce payload).length := by
        simp [fits]
      have long : ¬(cipher.encrypt nonce payload ++ nonce).length <
          Aead.tagLength + Aead.nonceLength := by
        simp [fits]
      simp only [long, if_false, cut, List.take_left, List.drop_left,
        cipher.decrypt?_encrypt, Option.elim]

end IsFrame

variable
  (framer : Framer)
  {position : Nat}
  {frame payload : Bytes}

/-- Whether blocks are encrypted. -/
def Encrypts
    (framer : Framer) :
    Prop :=
  framer.mode = .deterministic ∨ framer.mode = .randomIv

/-- The nonce that a frame holds, where frames hold one. -/
def heldNonce
    (frame : Bytes) :
    Bytes :=
  frame.drop (frame.length - Aead.nonceLength)

/-- Where blocks are encrypted, opening a frame can only fail as a
decryption. -/
theorem exists_decode_or
    (encrypts : framer.Encrypts)
    (position : Nat)
    (frame : Bytes) :
    (∃ payload, framer.decode position frame = .ok payload) ∨
      framer.decode position frame = .error .decryption := by
  unfold Encrypts mode at encrypts
  unfold decode
  cases scheme : framer.scheme with
  | null => simp [scheme] at encrypts
  | nullPadded => simp [scheme] at encrypts
  | deterministic cipher fixed =>
      dsimp only
      cases cipher.decrypt? fixed frame with
      | none => exact .inr rfl
      | some payload => exact .inl ⟨payload, rfl⟩
  | randomIv cipher =>
      dsimp only
      split
      · exact .inr rfl
      · cases cipher.decrypt?
          (frame.drop (frame.length - Aead.nonceLength))
          (frame.take (frame.length - Aead.nonceLength)) with
        | none => exact .inr rfl
        | some payload => exact .inl ⟨payload, rfl⟩

/-- Where blocks are encrypted, what opens is what was made of the block with
the nonce that is fixed or that the frame holds. -/
theorem decode_eq_ok_iff
    (encrypts : framer.Encrypts) :
    framer.decode position frame = .ok payload ↔
      frame = framer.encode (heldNonce frame) payload := by
  unfold Encrypts mode at encrypts
  unfold decode encode heldNonce
  cases scheme : framer.scheme with
  | null => simp [scheme] at encrypts
  | nullPadded => simp [scheme] at encrypts
  | deterministic cipher fixed =>
      dsimp only
      rw [← cipher.decrypt?_eq_some_iff]
      cases cipher.decrypt? fixed frame <;> simp
  | randomIv cipher =>
      dsimp only
      have parts := List.take_append_drop (frame.length - Aead.nonceLength)
        frame
      have held := List.length_drop (i := frame.length - Aead.nonceLength)
        (l := frame)
      generalize frame.drop (frame.length - Aead.nonceLength) = nonce at *
      generalize frame.take (frame.length - Aead.nonceLength) = sealed at *
      subst parts
      rw [List.append_left_inj, ← cipher.decrypt?_eq_some_iff]
      split
      · rename_i short
        simp only [reduceCtorEq, false_iff]
        intro opened
        have long := congrArg List.length
          ((cipher.decrypt?_eq_some_iff nonce sealed payload).mp opened)
        simp [Aead.tagLength, Aead.nonceLength] at *
        omega
      · cases cipher.decrypt? nonce sealed <;> simp

theorem tagLength_le_encode
    (encrypts : framer.Encrypts)
    (nonce block : Bytes) :
    Aead.tagLength ≤ (framer.encode nonce block).length := by
  unfold Encrypts mode at encrypts
  unfold encode
  cases scheme : framer.scheme with
  | null => simp [scheme] at encrypts
  | nullPadded => simp [scheme] at encrypts
  | deterministic cipher fixed => simp
  | randomIv cipher =>
      simp
      omega

/-- No string without room for a tag opens, so the nonce that is held is a
whole one. -/
theorem length_heldNonce
    (encrypts : framer.Encrypts)
    (opened : framer.decode position frame = .ok payload) :
    (heldNonce frame).length = Aead.nonceLength := by
  have tagged := framer.tagLength_le_encode encrypts (heldNonce frame) payload
  rw [← (framer.decode_eq_ok_iff encrypts).mp opened] at tagged
  rw [heldNonce, List.length_drop]
  unfold Aead.tagLength Aead.nonceLength at *
  omega

/-- What opens is a frame, unless padding of any bytes is taken for zeros. -/
theorem isFrame_of_decode
    (opened : framer.decode position frame = .ok payload) :
    framer.IsFrame frame payload ∨
      framer.scheme = .nullPadded ∧ padLength ≤ frame.length ∧
        payload = frame.take (frame.length - padLength) := by
  by_cases encrypts : framer.Encrypts
  · exact .inl ⟨heldNonce frame, framer.length_heldNonce encrypts opened,
      (framer.decode_eq_ok_iff encrypts).mp opened⟩
  · unfold Encrypts mode at encrypts
    unfold decode at opened
    unfold IsFrame encode
    cases scheme : framer.scheme with
    | null =>
        obtain rfl : frame = payload := by simpa [scheme] using opened
        exact .inl ⟨Bytes.zeros Aead.nonceLength, by simp, rfl⟩
    | nullPadded =>
        simp only [scheme] at opened
        split at opened
        · simp at opened
        · rename_i long
          exact .inr ⟨rfl, Nat.le_of_not_lt long,
            (Except.ok.inj opened).symm⟩
    | deterministic cipher fixed => simp [scheme] at encrypts
    | randomIv cipher => simp [scheme] at encrypts

/-- A frame that opens is longer than its block by what frames hold beside
their payload. -/
theorem length_of_decode
    (opened : framer.decode position frame = .ok payload) :
    frame.length = framer.storedLength payload.length := by
  rcases framer.isFrame_of_decode opened with isFrame | ⟨padded, long, rfl⟩
  · exact isFrame.length
  · simp [storedLength, overhead, padded]
    omega

/-! ## Sizes -/

theorem rowLength_eq
    (size : Nat) :
    framer.rowLength size =
      size / framer.size.bytes * framer.stride +
        if 0 < size % framer.size.bytes then
          framer.storedLength (size % framer.size.bytes)
        else 0 :=
  rfl

/-- A row of frames of nothing but the payload is as long as the string. -/
theorem rowLength_of_null
    (null : framer.scheme = .null)
    (size : Nat) :
    framer.rowLength size = size := by
  have := Nat.div_add_mod' size framer.size.bytes
  rw [rowLength_eq]
  simp only [stride, storedLength, overhead, null, Nat.add_zero]
  split <;> omega

/-- The frames of full blocks come one after the other. -/
theorem rowLength_mul_add
    (count rest : Nat) :
    framer.rowLength (count * framer.size.bytes + rest) =
      count * framer.stride + framer.rowLength rest := by
  have positive := framer.size.positive
  rw [rowLength_eq, rowLength_eq, Nat.mul_add_mod_self_right,
    Nat.mul_comm count, Nat.mul_add_div positive, Nat.add_mul]
  omega

@[simp]
theorem rowLength_zero :
    framer.rowLength 0 = 0 := by
  simp [rowLength_eq]

theorem rowLength_mul
    (count : Nat) :
    framer.rowLength (count * framer.size.bytes) =
      count * framer.stride := by
  simpa using framer.rowLength_mul_add count 0

theorem rowLength_block
    {length : Nat}
    (nonempty : 0 < length)
    (fits : length ≤ framer.size.bytes) :
    framer.rowLength length = framer.storedLength length := by
  rcases Nat.lt_or_eq_of_le fits with shorter | rfl
  · simp [rowLength_eq, Nat.div_eq_of_lt shorter, Nat.mod_eq_of_lt shorter,
      nonempty]
  · simp [rowLength_eq, Nat.div_self framer.size.positive, storedLength,
      stride]

/-- One more byte goes behind the others of its block, or starts a frame. -/
theorem rowLength_succ
    (size : Nat) :
    framer.rowLength size < framer.rowLength (size + 1) ∧
      framer.rowLength (size + 1) ≤
        framer.rowLength size + 1 + framer.overhead := by
  have whole := Nat.div_add_mod' size framer.size.bytes
  have short := Nat.mod_lt size framer.size.positive
  have grown := framer.rowLength_mul_add (size / framer.size.bytes)
    (size % framer.size.bytes + 1)
  rw [← Nat.add_assoc, whole, framer.rowLength_block (Nat.succ_pos _) short]
    at grown
  rw [grown, rowLength_eq]
  unfold storedLength
  split <;> omega

theorem rowLength_strictMono :
    StrictMono framer.rowLength :=
  strictMono_nat_of_lt_succ fun size => (framer.rowLength_succ size).1

theorem rowLength_mono :
    Monotone framer.rowLength :=
  framer.rowLength_strictMono.monotone

/-- The first frame, and the frames of what follows the first block. -/
theorem rowLength_step
    {length : Nat}
    (nonempty : 0 < length) :
    framer.rowLength length =
      framer.storedLength (min framer.size.bytes length) +
        framer.rowLength (length - framer.size.bytes) := by
  rcases Nat.le_total framer.size.bytes length with long | short
  · have whole := framer.rowLength_mul_add 1 (length - framer.size.bytes)
    rw [Nat.one_mul, Nat.one_mul, Nat.add_sub_cancel' long] at whole
    rw [Nat.min_eq_left long, whole]
    rfl
  · rw [Nat.min_eq_right short, Nat.sub_eq_zero_of_le short, rowLength_zero,
      framer.rowLength_block nonempty short, Nat.add_zero]

theorem rowLength_div
    (size : Nat) :
    framer.rowLength size / framer.stride = size / framer.size.bytes := by
  have positive := framer.stride_pos
  have short := Nat.mod_lt size framer.size.positive
  rw [rowLength_eq, Nat.mul_comm, Nat.mul_add_div positive,
    Nat.add_eq_left]
  apply Nat.div_eq_of_lt
  unfold storedLength stride
  split <;> omega

theorem rowLength_mod
    (size : Nat) :
    framer.rowLength size % framer.stride =
      if 0 < size % framer.size.bytes then
        framer.storedLength (size % framer.size.bytes)
      else 0 := by
  have positive := framer.stride_pos
  have short := Nat.mod_lt size framer.size.positive
  rw [rowLength_eq, Nat.mul_add_mod_self_right, Nat.mod_eq_of_lt]
  unfold storedLength stride
  split <;> omega

/-! ## Addresses -/

/-- Every position of the row of frames of `size` bytes is a word, and so is
the one behind them. -/
def Addresses
    (framer : Framer)
    (size : Nat) :
    Prop :=
  framer.rowLength size < wordCount

instance (size : Nat) : Decidable (framer.Addresses size) :=
  inferInstanceAs (Decidable (_ < _))

theorem addresses_zero :
    framer.Addresses 0 := by
  rw [Addresses, rowLength_zero]
  exact Nat.two_pow_pos 64

theorem Addresses.mono
    {framer : Framer}
    {size shorter : Nat}
    (addresses : framer.Addresses size)
    (short : shorter ≤ size) :
    framer.Addresses shorter :=
  Nat.lt_of_le_of_lt (framer.rowLength_mono short) addresses

theorem Addresses.max
    {framer : Framer}
    {size other : Nat}
    (addresses : framer.Addresses size)
    (too : framer.Addresses other) :
    framer.Addresses (Max.max size other) := by
  rcases Nat.le_total size other with less | more
  · rwa [Nat.max_eq_right less]
  · rwa [Nat.max_eq_left more]

theorem addresses_mul_iff
    (index : Nat) :
    framer.Addresses (index * framer.size.bytes) ↔
      index * framer.stride < wordCount := by
  rw [Addresses, rowLength_mul]

variable {framer}

/-- While addresses are words, a string is stored as its row of frames. -/
theorem storedSize_of_addresses
    {size : Nat}
    (addresses : framer.Addresses size) :
    framer.storedSize size = framer.rowLength size := by
  unfold storedSize
  cases scheme : framer.scheme with
  | null => exact (framer.rowLength_of_null scheme size).symm
  | _ => exact wrapped_of_lt addresses

/-- While addresses are words, frames are looked for where they are. -/
theorem storedOffset_mul
    {index : Nat}
    (addresses : framer.Addresses (index * framer.size.bytes)) :
    framer.storedOffset (index * framer.size.bytes) =
      index * framer.stride := by
  unfold storedOffset
  cases scheme : framer.scheme with
  | null => simp [stride, overhead, scheme]
  | _ =>
      dsimp only
      rw [Nat.mul_div_cancel index framer.size.positive]
      exact wrapped_of_lt ((framer.addresses_mul_iff index).mp addresses)

variable (framer)

/-! ## Slots -/

/-- The string that is stored in the slot of a block. -/
def slot
    (index : Nat)
    (stored : Bytes) :
    Bytes :=
  stored.slice (index * framer.stride) framer.stride

/-- A block of a string. -/
def block
    (index : Nat)
    (bytes : Bytes) :
    Bytes :=
  bytes.slice (index * framer.size.bytes) framer.size.bytes

/-- A row that has the right length and holds the frame of every full
block. -/
structure Torn
    (bytes stored : Bytes) :
    Prop where
  length : stored.length = framer.rowLength bytes.length
  full : ∀ index, (index + 1) * framer.size.bytes ≤ bytes.length →
    framer.IsFrame (framer.slot index stored) (framer.block index bytes)

/-- A row that holds the frame of every block. -/
structure Framed
    (bytes stored : Bytes) :
    Prop where
  length : stored.length = framer.rowLength bytes.length
  frame : ∀ index, index * framer.size.bytes < bytes.length →
    framer.IsFrame (framer.slot index stored) (framer.block index bytes)

variable
  {framer : Framer}
  {bytes stored data : Bytes}

theorem Framed.torn
    (framed : framer.Framed bytes stored) :
    framer.Torn bytes stored := by
  refine ⟨framed.length, fun index full => framed.frame index ?_⟩
  have := framer.size.positive
  rw [Nat.add_one_mul] at full
  omega

theorem rowLength_full
    (framer : Framer)
    {index length : Nat}
    (full : (index + 1) * framer.size.bytes ≤ length) :
    (index + 1) * framer.stride ≤ framer.rowLength length := by
  rw [← rowLength_mul]
  exact framer.rowLength_mono full

/-- Writing the frame of a block into its slot writes the block, if the frames
of the other blocks are there and the block is not made shorter. -/
theorem framed_splice
    {index : Nat}
    {frame : Bytes}
    (length : stored.length = framer.rowLength bytes.length)
    (others : ∀ other, other ≠ index →
      other * framer.size.bytes < bytes.length →
        framer.IsFrame (framer.slot other stored) (framer.block other bytes))
    (starts : index * framer.size.bytes ≤ bytes.length)
    (nonempty : data ≠ [])
    (fits : data.length ≤ framer.size.bytes)
    (covers :
      min framer.size.bytes (bytes.length - index * framer.size.bytes) ≤
        data.length)
    (isFrame : framer.IsFrame frame data) :
    framer.Framed
      (bytes.splice (index * framer.size.bytes) data)
      (stored.splice (index * framer.stride) frame) := by
  have frameLength := isFrame.length
  have dataLength := List.length_pos_iff.mpr nonempty
  have frameNonempty : frame ≠ [] := by
    rintro rfl
    simp [storedLength] at frameLength
    omega
  constructor
  case length =>
    rw [Bytes.length_splice, if_neg frameNonempty, Bytes.length_splice,
      if_neg nonempty, length, frameLength, framer.rowLength_mono.map_max,
      rowLength_mul_add, framer.rowLength_block dataLength fits]
  case frame =>
    intro other there
    have reached : index * framer.stride ≤ stored.length := by
      rw [length, ← rowLength_mul]
      exact framer.rowLength_mono starts
    have frameFits : frame.length ≤ framer.stride := by
      rw [frameLength]
      exact Nat.add_le_add_right fits _
    rcases Nat.lt_trichotomy other index with before | rfl | behind
    · have blocks := Nat.mul_le_mul_right framer.size.bytes before
      have slots := Nat.mul_le_mul_right framer.stride before
      rw [Nat.succ_mul] at blocks slots
      rw [slot, block, Bytes.slice_splice_before _ _ slots reached,
        Bytes.slice_splice_before _ _ blocks starts]
      exact others other (Nat.ne_of_lt before) (by omega)
    · have last : data.length = framer.size.bytes ∨
          bytes.length ≤ other * framer.size.bytes + data.length := by
        omega
      have lastFrame : frame.length = framer.stride ∨
          stored.length ≤ other * framer.stride + frame.length := by
        rw [frameLength]
        refine last.imp (congrArg framer.storedLength) fun short => ?_
        rw [length, ← framer.rowLength_block dataLength fits,
          ← rowLength_mul_add]
        exact framer.rowLength_mono short
      rw [slot, block, Bytes.slice_splice_self _ nonempty fits last,
        Bytes.slice_splice_self _ frameNonempty frameFits lastFrame]
      exact isFrame
    · have blocks := Nat.mul_le_mul_right framer.size.bytes behind
      have slots := Nat.mul_le_mul_right framer.stride behind
      rw [Nat.succ_mul] at blocks slots
      rw [slot, block, Bytes.slice_splice_behind _ _ (by omega),
        Bytes.slice_splice_behind _ _ (by omega)]
      rw [Bytes.length_splice, if_neg nonempty] at there
      exact others other (Nat.ne_of_gt behind) (by omega)

/-- Writing over a block, or behind the last one, keeps the other frames. -/
theorem Framed.splice
    {index : Nat}
    {frame : Bytes}
    (framed : framer.Framed bytes stored)
    (starts : index * framer.size.bytes ≤ bytes.length)
    (nonempty : data ≠ [])
    (fits : data.length ≤ framer.size.bytes)
    (covers :
      min framer.size.bytes (bytes.length - index * framer.size.bytes) ≤
        data.length)
    (isFrame : framer.IsFrame frame data) :
    framer.Framed
      (bytes.splice (index * framer.size.bytes) data)
      (stored.splice (index * framer.stride) frame) :=
  framed_splice framed.length (fun other _ => framed.frame other) starts
    nonempty fits covers isFrame

/-- Cutting the row at the stored size of a shorter string leaves the frames
of the full blocks. -/
theorem Framed.tear
    {target : Nat}
    (framed : framer.Framed bytes stored)
    (shorter : target ≤ bytes.length) :
    framer.Torn
      (bytes.resize target)
      (stored.resize (framer.rowLength target)) := by
  constructor
  case length => simp
  case full =>
    intro index full
    rw [Bytes.length_resize] at full
    have slots := framer.rowLength_full full
    have kept := framer.rowLength_mono shorter
    rw [Nat.succ_mul] at full slots
    rw [slot, block, Bytes.slice_resize _ slots (by rw [framed.length]; omega),
      Bytes.slice_resize _ full (by omega)]
    apply framed.frame
    have := framer.size.positive
    omega

/-- A row whose last block is full is not torn. -/
theorem Torn.framed
    (torn : framer.Torn bytes stored)
    (even : bytes.length % framer.size.bytes = 0) :
    framer.Framed bytes stored := by
  refine ⟨torn.length, fun index there => torn.full index ?_⟩
  rw [← Nat.div_mul_cancel (Nat.dvd_of_mod_eq_zero even)] at there ⊢
  exact Nat.mul_le_mul_right _ (Nat.lt_of_mul_lt_mul_right there)

/-- Writing the last block again mends a row that was cut inside it. -/
theorem Torn.mend
    {index : Nat}
    {frame : Bytes}
    (torn : framer.Torn bytes stored)
    (starts : index * framer.size.bytes < bytes.length)
    (last : bytes.length ≤ (index + 1) * framer.size.bytes)
    (isFrame : framer.IsFrame frame (framer.block index bytes)) :
    framer.Framed bytes (stored.splice (index * framer.stride) frame) := by
  have positive := framer.size.positive
  have blockLength : (framer.block index bytes).length =
      min framer.size.bytes (bytes.length - index * framer.size.bytes) :=
    Bytes.length_slice _ _ _
  have written := framed_splice torn.length ?others (Nat.le_of_lt starts)
    ?nonempty (by omega) (Nat.le_of_eq blockLength.symm) isFrame
  case others =>
    intro other differs there
    have before : other < index := by
      have := Nat.lt_of_mul_lt_mul_right (Nat.lt_of_lt_of_le there last)
      omega
    exact torn.full other
      (Nat.le_trans (Nat.mul_le_mul_right _ before) (Nat.le_of_lt starts))
  case nonempty =>
    apply List.ne_nil_of_length_pos
    omega
  rwa [block, Bytes.splice_slice_self _ _ (Nat.le_of_lt starts)] at written

/-! ## The row as a list -/

/-- The stored string is the frames of the blocks, one after the other. -/
def Stores
    (framer : Framer)
    (bytes stored : Bytes) :
    Prop :=
  ∃ frames,
    List.Forall₂ framer.IsFrame frames (bytes.chunks framer.size.bytes) ∧
      stored = frames.flatten

/-- Nothing is stored of the empty string. -/
theorem stores_nil
    (framer : Framer) :
    framer.Stores [] [] :=
  ⟨[], by simp [Bytes.chunks], rfl⟩

theorem slot_succ
    (index : Nat)
    (stored : Bytes) :
    framer.slot (index + 1) stored =
      framer.slot index (stored.drop framer.stride) := by
  rw [slot, slot, Bytes.slice, Bytes.slice, List.drop_drop, Nat.succ_mul,
    Nat.add_comm]

theorem block_succ
    (index : Nat)
    (bytes : Bytes) :
    framer.block (index + 1) bytes =
      framer.block index (bytes.drop framer.size.bytes) := by
  rw [block, block, Bytes.slice, Bytes.slice, List.drop_drop, Nat.succ_mul,
    Nat.add_comm]

/-- A row is framed when its first slot is and what follows is. -/
theorem framed_iff_take_drop
    (nonempty : bytes ≠ []) :
    framer.Framed bytes stored ↔
      framer.IsFrame (stored.take framer.stride)
          (bytes.take framer.size.bytes) ∧
        framer.Framed (bytes.drop framer.size.bytes)
          (stored.drop framer.stride) := by
  have positive := framer.size.positive
  have long := List.length_pos_iff.mpr nonempty
  have first : framer.slot 0 stored = stored.take framer.stride := by
    simp [slot, Bytes.slice]
  have firstBlock :
      framer.block 0 bytes = bytes.take framer.size.bytes := by
    simp [block, Bytes.slice]
  have step := framer.rowLength_step long
  have none : bytes.length ≤ framer.size.bytes →
      framer.rowLength (bytes.length - framer.size.bytes) = 0 := by
    intro short
    rw [Nat.sub_eq_zero_of_le short, rowLength_zero]
  constructor
  case mp =>
    intro framed
    refine ⟨first ▸ firstBlock ▸ framed.frame 0 (by omega), ?_, ?_⟩
    · rw [List.length_drop, framed.length, List.length_drop]
      unfold storedLength at step
      unfold stride
      omega
    · intro index there
      rw [← slot_succ, ← block_succ]
      apply framed.frame
      rw [List.length_drop] at there
      rw [Nat.succ_mul]
      omega
  case mpr =>
    rintro ⟨isFrame, rest⟩
    constructor
    case length =>
      have firstLength := isFrame.length
      have restLength := rest.length
      rw [List.length_take, List.length_take] at firstLength
      rw [List.length_drop, List.length_drop] at restLength
      unfold storedLength at step firstLength
      unfold stride at firstLength restLength
      omega
    case frame =>
      intro index there
      cases index with
      | zero => rwa [first, firstBlock]
      | succ index =>
          rw [slot_succ, block_succ]
          apply rest.frame
          rw [Nat.succ_mul] at there
          rw [List.length_drop]
          omega

theorem chunks_nil :
    Bytes.chunks framer.size.bytes [] = [] := by
  simp [Bytes.chunks]

theorem chunks_of_ne_nil
    (nonempty : bytes ≠ []) :
    bytes.chunks framer.size.bytes =
      bytes.take framer.size.bytes ::
        Bytes.chunks framer.size.bytes (bytes.drop framer.size.bytes) := by
  have positive := framer.size.positive
  rw [Bytes.chunks, if_neg (by simp [nonempty]; omega)]

/-- The first frame of a row is as long as a slot, or it is the only one. -/
theorem take_drop_flatten
    {frame : Bytes}
    {others : List Bytes}
    (isFrame : framer.IsFrame frame (bytes.take framer.size.bytes))
    (framed : List.Forall₂ framer.IsFrame others
      (Bytes.chunks framer.size.bytes (bytes.drop framer.size.bytes))) :
    (frame :: others).flatten.take framer.stride = frame ∧
      (frame :: others).flatten.drop framer.stride = others.flatten := by
  have length := isFrame.length
  rw [List.length_take, storedLength] at length
  rcases Nat.le_total framer.size.bytes bytes.length with full | short
  · have same : frame.length = framer.stride := by
      unfold stride
      omega
    simp [← same]
  · have fits : frame.length ≤ framer.stride := by
      unfold stride
      omega
    rw [List.drop_eq_nil_of_le short, chunks_nil,
      List.forall₂_nil_right_iff] at framed
    subst framed
    simp [List.take_of_length_le fits, List.drop_eq_nil_of_le fits]

/-- A row stores a string if its first slot holds the first block and the
others store the rest. -/
theorem stores_iff_take_drop
    (nonempty : bytes ≠ []) :
    framer.Stores bytes stored ↔
      framer.IsFrame (stored.take framer.stride)
          (bytes.take framer.size.bytes) ∧
        framer.Stores (bytes.drop framer.size.bytes)
          (stored.drop framer.stride) := by
  constructor
  · rintro ⟨frames, row, rfl⟩
    rw [chunks_of_ne_nil nonempty] at row
    rcases List.forall₂_cons_right_iff.mp row with
      ⟨frame, others, isFrame, framed, rfl⟩
    have apart := take_drop_flatten isFrame framed
    rw [apart.1, apart.2]
    exact ⟨isFrame, others, framed, rfl⟩
  · rintro ⟨isFrame, frames, framed, same⟩
    refine ⟨stored.take framer.stride :: frames, ?_, ?_⟩
    · rw [chunks_of_ne_nil nonempty]
      exact .cons isFrame framed
    · rw [List.flatten_cons, ← same, List.take_append_drop]

/-- Frame by frame and slot by slot the same rows store a string. -/
theorem stores_iff_framed :
    framer.Stores bytes stored ↔ framer.Framed bytes stored := by
  have positive := framer.size.positive
  induction length : bytes.length using Nat.strong_induction_on
    generalizing bytes stored with
  | _ length ih =>
    by_cases empty : bytes = []
    · subst empty
      constructor
      · rintro ⟨frames, framed, rfl⟩
        rw [chunks_nil, List.forall₂_nil_right_iff] at framed
        subst framed
        exact ⟨by simp, by simp⟩
      · intro framed
        have nothing : stored = [] := by simpa using framed.length
        exact ⟨[], by rw [chunks_nil]; exact .nil, nothing⟩
    · have long := List.length_pos_iff.mpr empty
      have rest : framer.Stores (bytes.drop framer.size.bytes)
            (stored.drop framer.stride) ↔
          framer.Framed (bytes.drop framer.size.bytes)
            (stored.drop framer.stride) :=
        ih _ (by rw [List.length_drop]; omega) rfl
      rw [framed_iff_take_drop empty, stores_iff_take_drop empty, rest]

end Strata.Framer
