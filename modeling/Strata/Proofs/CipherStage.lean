import Strata.Layer.Cipher
import Strata.Proofs.FlatFile
import Strata.Proofs.Frames

/-!
# The cipher stage over a flat file

The stage stores a byte string as a row of frames in the file below it.  While
the row is whole, its requests act on the string block by block, as long as the
places of the frames are words.  The nonces are those that the tape gives,
whatever they are.
-/

namespace Strata

/-! ## The logical size -/

/-- The logical size of a stored file whose last frame is known. -/
def Framer.sizeWith
    (framer : Framer)
    (stored : Nat)
    (frame : Bytes) :
    Except Error Nat :=
  let full := stored / framer.stride
  let last := stored % framer.stride
  if frame.length < last then
    .error (.shortTransfer last frame.length)
  else
    (framer.decode (full * framer.stride) frame).map fun block =>
      full * framer.size.bytes + block.length

/-- The logical size follows from the stored size alone, or from that and the
last frame. -/
theorem Framer.logicalSize_known_or_read
    (framer : Framer)
    (stored : Nat) :
    (∃ size, ∀ {σ : Type} (readFrame : Nat → Nat → Action σ Bytes),
        framer.logicalSize readFrame stored = return size) ∨
      ∃ offset length,
        ∀ {σ : Type} (readFrame : Nat → Nat → Action σ Bytes),
          framer.logicalSize readFrame stored =
            readFrame offset length >>= fun frame =>
              Action.ofExcept (framer.sizeWith stored frame) := by
  unfold logicalSize
  dsimp only
  split
  · exact .inl ⟨_, fun _ => rfl⟩
  · exact .inl ⟨_, fun _ => rfl⟩
  · split
    · exact .inl ⟨_, fun _ => rfl⟩
    · refine .inr ⟨stored / framer.stride * framer.stride,
        stored % framer.stride, fun readFrame => bind_congr fun frame => ?_⟩
      unfold sizeWith
      dsimp only
      split
      · rfl
      · cases framer.decode _ frame <;> rfl

/-- The size follows from the length of the row where blocks are not encrypted,
or where the last block is full. -/
theorem Framer.logicalSize_known
    {σ : Type}
    {framer : Framer}
    {size : Nat}
    (readFrame : (offset length : Nat) → Action σ Bytes)
    (known : ¬ framer.Encrypts ∨ size % framer.size.bytes = 0) :
    framer.logicalSize readFrame (framer.rowLength size) = return size := by
  have index := framer.rowLength_div size
  have short := framer.rowLength_mod size
  have slots := Nat.div_add_mod' (framer.rowLength size) framer.stride
  have whole := Nat.div_add_mod' size framer.size.bytes
  rw [← index] at whole
  unfold logicalSize
  unfold Encrypts mode at known
  generalize framer.rowLength size % framer.stride = rest at *
  generalize framer.rowLength size / framer.stride = full at *
  cases scheme : framer.scheme with
  | null =>
      dsimp only
      rw [framer.rowLength_of_null scheme]
  | nullPadded =>
      dsimp only
      congr 1
      simp only [stride, storedLength, overhead, scheme, padLength]
        at slots short ⊢
      rw [Nat.mul_add] at slots
      split at short <;> split <;> omega
  | _ =>
      have even : size % framer.size.bytes = 0 := by simpa [scheme] using known
      rw [if_neg (by omega)] at short
      dsimp only
      rw [if_pos short]
      congr 1
      omega

/-- The last frame of a row is what the slot behind the full frames holds. -/
theorem Framer.Framed.last
    {framer : Framer}
    {bytes stored : Bytes}
    (framed : framer.Framed bytes stored)
    (partly : stored.length % framer.stride ≠ 0) :
    ∃ rest,
      framer.IsFrame
          (stored.slice (stored.length / framer.stride * framer.stride)
            (stored.length % framer.stride)) rest ∧
        stored.length / framer.stride * framer.size.bytes + rest.length =
          bytes.length := by
  have size := framed.length
  have index := framer.rowLength_div bytes.length
  have short := framer.rowLength_mod bytes.length
  have whole := Nat.div_add_mod' bytes.length framer.size.bytes
  have slots := Nat.div_add_mod' stored.length framer.stride
  have less := Nat.mod_lt stored.length framer.stride_pos
  have lessBlock := Nat.mod_lt bytes.length framer.size.positive
  rw [← size] at index short
  have some : 0 < bytes.length % framer.size.bytes := by
    rcases Nat.eq_zero_or_pos (bytes.length % framer.size.bytes) with h | h
    · exact absurd (by simpa [h] using short) partly
    · exact h
  refine ⟨framer.block (bytes.length / framer.size.bytes) bytes, ?_, ?_⟩
  · have isFrame := framed.frame (bytes.length / framer.size.bytes) (by omega)
    have toEnd :
        stored.slice (stored.length / framer.stride * framer.stride)
            (stored.length % framer.stride) =
          framer.slot (stored.length / framer.stride) stored :=
      Bytes.slice_eq_slice _ (.inr ⟨by omega, by omega⟩)
    rwa [toEnd, index]
  · rw [index, block, Bytes.length_slice]
    omega

/-- The logical size is found by arithmetic or by opening the last frame. -/
theorem Framer.logicalSize_answers
    {σ : Type}
    {framer : Framer}
    {bytes stored : Bytes}
    {Holds : σ → Prop}
    {readFrame : Nat → Nat → Action σ Bytes}
    {state : σ}
    (framed : framer.Framed bytes stored)
    (reads : ∀ offset length reached, Holds reached →
      (readFrame offset length).Answers reached
        (stored.slice offset length) Holds)
    (held : Holds state) :
    (framer.logicalSize readFrame stored.length).Answers state
      bytes.length Holds := by
  by_cases known : ¬framer.Encrypts ∨ bytes.length % framer.size.bytes = 0
  · rw [framed.length, logicalSize_known readFrame known]
    exact .pure held
  have size := framed.length
  have short := framer.rowLength_mod bytes.length
  have slots := Nat.div_add_mod' stored.length framer.stride
  have tail := framed.last
  rw [← size] at short
  rw [not_or, not_not] at known
  have partly : stored.length % framer.stride ≠ 0 := by
    unfold storedLength at short
    split at short <;> omega
  unfold Encrypts mode at known
  rw [logicalSize]
  generalize stored.length % framer.stride = rest at *
  generalize stored.length / framer.stride = full at *
  dsimp only
  cases scheme : framer.scheme with
  | null => simp [scheme] at known
  | nullPadded => simp [scheme] at known
  | _ =>
      dsimp only
      rw [if_neg partly]
      rcases tail partly with ⟨payload, isFrame, length⟩
      refine (reads _ _ _ held).bind fun reached found => ?_
      have delivered :
          ¬(stored.slice (full * framer.stride) rest).length < rest := by
        rw [Bytes.length_slice]
        omega
      rw [if_neg delivered, isFrame.decode, ← length]
      exact .bind (.ofExcept found) fun _ opened => .pure opened

/-! ## Requests -/

namespace Layer

variable
  {η : Type}
  {lower : Layer (Session η)}
  {path : Path}
  {shape : Attributes}
  {Holds : Bytes → η → Prop}
  (framer : Framer)
  (recorder : Nat)
  {session : Session η}
  {stored : Bytes}

/-- Whatever nonce is drawn, the result is a frame of the block. -/
theorem frameWith_answers
    (block : Bytes)
    (held : Holds stored session.storage) :
    ∃ frame,
      framer.IsFrame frame block ∧
        (framer.frameWith Session.drawNonce block).Answers session frame
          (fun reached => Holds stored reached.storage) := by
  rcases Session.drawNonce_answers held with ⟨nonce, length, drawn⟩
  unfold Framer.frameWith
  cases scheme : framer.scheme with
  | randomIv cipher =>
      exact ⟨framer.encode nonce block, ⟨nonce, length, rfl⟩,
        drawn.bind fun reached found => .pure found⟩
  | _ =>
      refine ⟨framer.encode [] block,
        ⟨Bytes.zeros Aead.nonceLength, by simp, ?_⟩, .pure held⟩
      simp only [Framer.encode, scheme]

/-- Reading a block opens what is stored where its frame is looked for. -/
theorem framed_read
    (flat : FlatFile lower path shape
      (fun bytes session => Holds bytes session.storage))
    (handle : FileHandle)
    (offset length : Nat)
    {payload : Bytes}
    (held : Holds stored session.storage)
    (opens :
      stored.slice (framer.storedOffset offset)
            (framer.storedLength length) = [] ∧
          payload = [] ∨
        framer.decode offset
          (stored.slice (framer.storedOffset offset)
            (framer.storedLength length)) = .ok payload) :
    ((lower.framed framer Session.drawNonce (Session.meter recorder)).read
      path handle offset length).Answers session
        (payload.take length)
        (fun reached => Holds stored reached.storage) := by
  dsimp only [framed]
  rcases
      Session.timed_answers recorder "read"
        (Cipher.readBlock framer lower path handle offset length) session with
    ⟨started, same, timed⟩
  refine timed _ (Holds stored) ?_
  unfold Cipher.readBlock
  refine (flat.read _ _ _ _ _ (same ▸ held)).bind fun reached found => ?_
  split
  · rename_i empty
    have nothing : payload = [] := by
      rcases opens with ⟨-, nothing⟩ | opened
      · exact nothing
      · have := framer.length_of_decode opened
        rw [List.isEmpty_iff.mp empty] at this
        unfold Framer.storedLength at this
        exact List.length_eq_zero_iff.mp (by simp at this; omega)
    rw [nothing, List.take_nil]
    exact .pure found
  · rename_i some
    have opened := opens.resolve_left fun none => some (by simp [none.1])
    rw [opened]
    exact .bind (.ofExcept found) fun _ kept => .pure kept

/-- Writing a block stores a frame of it where its frame is looked for. -/
theorem framed_write
    (flat : FlatFile lower path shape
      (fun bytes session => Holds bytes session.storage))
    (handle : FileHandle)
    (offset : Nat)
    (data : Bytes)
    (held : Holds stored session.storage) :
    ∃ frame,
      framer.IsFrame frame data ∧
        ((lower.framed framer Session.drawNonce
          (Session.meter recorder)).write path handle offset data).Answers
            session data.length
            (fun reached =>
              Holds (stored.splice (framer.storedOffset offset) frame)
                reached.storage) := by
  dsimp only [framed]
  rcases
      Session.timed_answers recorder "write"
        (Cipher.writeBlock framer lower path Session.drawNonce handle offset
          data) session with
    ⟨started, same, timed⟩
  rw [← same] at held
  rcases frameWith_answers framer data held with ⟨frame, isFrame, drawn⟩
  refine ⟨frame, isFrame, timed _ (Holds _) ?_⟩
  unfold Cipher.writeBlock
  refine drawn.bind fun reached found => ?_
  refine (flat.write _ _ _ _ _ found).bind fun after written => ?_
  rw [if_neg (Nat.lt_irrefl _)]
  exact .pure written

/-- The storage holds the row of frames of a byte string, all of them at
places that are words. -/
def HoldsFramed
    (Holds : Bytes → η → Prop)
    (bytes : Bytes)
    (session : Session η) :
    Prop :=
  framer.Addresses bytes.length ∧
    ∃ stored, framer.Framed bytes stored ∧ Holds stored session.storage

/-- The storage holds the row of a byte string, maybe with a torn last
frame, at places that are words. -/
def HoldsTorn
    (Holds : Bytes → η → Prop)
    (bytes : Bytes)
    (session : Session η) :
    Prop :=
  framer.Addresses bytes.length ∧
    ∃ stored, framer.Torn bytes stored ∧ Holds stored session.storage

theorem sizeOf_answers
    (flat : FlatFile lower path shape
      (fun bytes session => Holds bytes session.storage))
    (handle : Option FileHandle)
    {bytes : Bytes}
    (framed : framer.Framed bytes stored)
    (held : Holds stored session.storage) :
    (Cipher.sizeOf framer lower path handle stored.length).Answers session
      bytes.length (fun reached => Holds stored reached.storage) := by
  unfold Cipher.sizeOf
  refine Framer.logicalSize_answers framed ?_ held
  intro offset length reached found
  exact withHandle_answers handle found
    (fun state before => flat.openFile .readOnly stored state before)
    (fun opened state before => flat.read opened _ _ stored state before)
    (fun opened state after => flat.release opened stored state after)

/-- The block at the start of a slot of a row, in full or as far as it is
asked for. -/
theorem framed_read_block
    (flat : FlatFile lower path shape
      (fun bytes session => Holds bytes session.storage))
    (handle : FileHandle)
    (index length : Nat)
    {bytes : Bytes}
    (framed : framer.Framed bytes stored)
    (held : Holds stored session.storage)
    (addresses : framer.Addresses (index * framer.size.bytes))
    (covers :
      min framer.size.bytes (bytes.length - index * framer.size.bytes) ≤
        length)
    (fits : length ≤ framer.size.bytes) :
    ((lower.framed framer Session.drawNonce (Session.meter recorder)).read
      path handle (index * framer.size.bytes) length).Answers session
        (bytes.slice (index * framer.size.bytes) length)
        (fun reached => Holds stored reached.storage) := by
  have same : bytes.slice (index * framer.size.bytes) length =
      (framer.block index bytes).take length := by
    rw [Framer.block, Bytes.slice, Bytes.slice, List.take_take,
      Nat.min_eq_left fits]
  rw [same]
  refine framed_read framer recorder flat handle _ length held ?_
  rw [Framer.storedOffset_mul addresses]
  by_cases there : index * framer.size.bytes < bytes.length
  · right
    have isFrame := framed.frame index there
    have whole : framer.slot index stored =
        stored.slice (index * framer.stride) (framer.storedLength length) := by
      apply Bytes.slice_eq_slice
      rcases Nat.lt_or_eq_of_le fits with shorter | rfl
      · right
        have ends : stored.length ≤
            index * framer.stride + framer.storedLength length := by
          rw [framed.length, ← framer.rowLength_block (by omega) fits,
            ← framer.rowLength_mul_add]
          exact framer.rowLength_mono (by omega)
        unfold Framer.storedLength Framer.stride at ends ⊢
        omega
      · exact .inl rfl
    rw [← whole]
    exact isFrame.decode _
  · left
    have past := Nat.le_of_not_lt there
    have pastRow : stored.length ≤ index * framer.stride := by
      rw [framed.length, ← framer.rowLength_mul]
      exact framer.rowLength_mono past
    exact ⟨Bytes.slice_eq_nil _ _ pastRow, Bytes.slice_eq_nil _ _ past⟩

/-- While the row of frames is whole, the cipher stage acts on the byte string
block by block, up to the lengths whose frames are at places that are words. -/
theorem framed_blockFile
    (flat : FlatFile lower path shape
      (fun bytes session => Holds bytes session.storage))
    (isFile : shape.isFile) :
    BlockFile
      (lower.framed framer Session.drawNonce (Session.meter recorder))
      path framer.size shape framer.Addresses
      (HoldsFramed framer Holds) (HoldsTorn framer Holds) := by
  constructor
  case shorter =>
    intro longer length addresses short
    exact addresses.mono short
  case fits =>
    exact fun bytes session holds => holds.1
  case openFile =>
    rintro access bytes session ⟨addresses, stored, framed, held⟩
    rcases flat.openFile access stored session held with ⟨opened, answers⟩
    exact ⟨opened, answers.weaken fun reached found =>
      ⟨addresses, stored, framed, found⟩⟩
  case release =>
    rintro handle bytes session ⟨addresses, stored, framed, held⟩
    exact (flat.release handle stored session held).weaken
      fun reached found => ⟨addresses, stored, framed, found⟩
  case read =>
    rintro handle index length bytes session
      ⟨addresses, stored, framed, held⟩ placed covers fits
    exact (framed_read_block framer recorder flat handle index length framed
      held placed covers fits).weaken
        fun reached found => ⟨addresses, stored, framed, found⟩
  case write =>
    rintro handle index data bytes session
      ⟨addresses, stored, framed, held⟩ within starts nonempty fits covers
    rcases framed_write framer recorder flat handle _ data held with
      ⟨frame, isFrame, answers⟩
    rw [Framer.storedOffset_mul (addresses.mono starts)] at answers
    refine answers.weaken fun reached found =>
      ⟨?_, _, framed.splice starts nonempty fits covers isFrame, found⟩
    rw [Bytes.length_splice, if_neg nonempty]
    exact addresses.max within
  case fileSize =>
    rintro handle bytes session ⟨addresses, stored, framed, held⟩
    refine ((flat.fileSize handle stored session held).bind
      fun reached found =>
        sizeOf_answers framer flat handle framed found).weaken ?_
    exact fun reached found => ⟨addresses, stored, framed, found⟩
  case attributes =>
    rintro handle bytes session ⟨addresses, stored, framed, held⟩
    refine (flat.attributes handle stored session held).bind
      fun reached found => ?_
    rw [if_pos (by exact isFile)]
    refine ((sizeOf_answers framer flat handle framed found).bind
      fun final known => .pure ?_)
    exact ⟨addresses, stored, framed, known⟩
  case keep =>
    rintro handle bytes session ⟨addresses, stored, framed, held⟩
    have same : stored.resize (framer.storedSize bytes.length) = stored := by
      rw [Framer.storedSize_of_addresses addresses, ← framed.length,
        Bytes.resize_self]
    refine (flat.truncate handle _ stored session held).weaken
      fun reached found => ⟨addresses, stored, framed, ?_⟩
    rwa [same] at found
  case tear =>
    rintro handle target bytes session ⟨addresses, stored, framed, held⟩
      shorter
    have torn := framed.tear shorter
    rw [← Framer.storedSize_of_addresses (addresses.mono shorter)] at torn
    refine (flat.truncate handle _ stored session held).weaken
      fun reached found => ⟨?_, _, torn, found⟩
    rw [Bytes.length_resize]
    exact addresses.mono shorter
  case even =>
    rintro bytes session ⟨addresses, stored, torn, held⟩ whole
    exact ⟨addresses, stored, torn.framed whole, held⟩
  case mend =>
    rintro handle index bytes session ⟨addresses, stored, torn, held⟩
      starts last
    rcases
        framed_write framer recorder flat
          handle (index * framer.size.bytes) (framer.block index bytes)
          held with
      ⟨frame, isFrame, answers⟩
    rw [Framer.storedOffset_mul (addresses.mono (Nat.le_of_lt starts))]
      at answers
    have length : (framer.block index bytes).length =
        bytes.length - index * framer.size.bytes := by
      rw [Framer.block, Bytes.length_slice]
      rw [Nat.succ_mul] at last
      omega
    rw [← length]
    exact answers.weaken fun reached found =>
      ⟨addresses, _, torn.mend starts last isFrame, found⟩

end Layer

end Strata
