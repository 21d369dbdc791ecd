import Strata.Proofs.AlignStage
import Strata.Proofs.CipherStage

/-!
# Holes

A write whose first block is full is passed on without a look at the end of
the file, so it may leave a hole below it.  The hole is filled with zeros in
the file below, where the slots of whole blocks must hold frames.  Zeros are
frames of zeros if blocks are not encrypted; otherwise the blocks in the hole,
and the block that the file ended in, open only by accident of the tag.
-/

namespace Strata

/-! ## Slots behind the end -/

namespace Framer

variable
  (framer : Framer)
  (index : Nat)
  (stored : Bytes)

/-- The block in a slot, which is empty if nothing is stored there. -/
def openSlot :
    Except Error Bytes :=
  if framer.slot index stored = [] then
    .ok []
  else
    framer.decode (index * framer.size.bytes) (framer.slot index stored)

/-- The block in a slot opens as its old bytes and zeros behind them, when the
row is extended with zeros up to the slot of `offset`. -/
def OpensExtended
    (offset : Nat) :
    Prop :=
  framer.openSlot index
      (stored.resize (offset / framer.size.bytes * framer.stride)) =
    (framer.openSlot index stored).map (·.resize framer.size.bytes)

/-- A request writes a full first block past the end, and a block of the hole
below it does not open. -/
def LeavesClosedHole
    (framer : Framer)
    (stored : Bytes) :
    FileRequest → Prop
  | .write _ offset data =>
    framer.size.inside offset = 0 ∧ framer.size.bytes ≤ data.length ∧
      ∃ index,
        stored.length / framer.stride ≤ index ∧
          index < offset / framer.size.bytes ∧
          ¬framer.OpensExtended index stored offset
  | _ => False

variable
  {framer : Framer}
  {index : Nat}
  {bytes stored frame payload : Bytes}

/-- Without encryption a frame that is extended with zeros, be it an empty
one, is the frame of the extended block. -/
theorem isFrame_resize
    (plain : framer.scheme = .null ∨ framer.scheme = .nullPadded)
    (isFrame : frame = [] ∧ payload = [] ∨ framer.IsFrame frame payload)
    (fits : payload.length ≤ framer.size.bytes) :
    framer.IsFrame (frame.resize framer.stride)
      (payload.resize framer.size.bytes) := by
  refine ⟨Bytes.zeros Aead.nonceLength, Bytes.length_zeros _, ?_⟩
  rcases plain with scheme | scheme
  · have same : frame = payload := by
      rcases isFrame with ⟨rfl, rfl⟩ | ⟨nonce, -, rfl⟩
      · rfl
      · simp [encode, scheme]
    simp [encode, stride, overhead, scheme, same]
  · have same : frame = payload ++ Bytes.zeros (frame.length - payload.length)
        ∧ frame.length ≤ payload.length + padLength := by
      rcases isFrame with ⟨rfl, rfl⟩ | ⟨nonce, -, rfl⟩
      · simp [Bytes.zeros]
      · simp [encode, scheme]
    simp only [encode, stride, overhead, scheme]
    apply List.ext_getElem?
    intro position
    rw [same.1]
    grind

/-- A slot of a row holds the frame of its block, or nothing behind the last
block. -/
theorem Framed.slot
    (framed : framer.Framed bytes stored)
    (index : Nat) :
    framer.slot index stored = [] ∧ framer.block index bytes = [] ∨
      framer.IsFrame (framer.slot index stored)
        (framer.block index bytes) := by
  rcases Nat.lt_or_ge (index * framer.size.bytes) bytes.length with there | past
  · exact .inr (framed.frame index there)
  · have pastRow : stored.length ≤ index * framer.stride := by
      rw [framed.length, ← framer.rowLength_mul]
      exact framer.rowLength_mono past
    exact .inl ⟨Bytes.slice_eq_nil _ _ pastRow, Bytes.slice_eq_nil _ _ past⟩

theorem openSlot_of_framed
    (framed : framer.Framed bytes stored)
    (index : Nat) :
    framer.openSlot index stored = .ok (framer.block index bytes) := by
  unfold openSlot
  rcases framed.slot index with ⟨none, empty⟩ | isFrame
  · rw [if_pos none, empty]
  · split
    · rename_i none
      have length := isFrame.length
      rw [none, storedLength] at length
      have empty : framer.block index bytes = [] :=
        List.length_eq_zero_iff.mp (by simp at length; omega)
      rw [empty]
    · exact isFrame.decode _

theorem slot_resize
    {count : Nat}
    (before : index < count)
    (stored : Bytes) :
    framer.slot index (stored.resize (count * framer.stride)) =
      (framer.slot index stored).resize framer.stride := by
  have slots := Nat.mul_le_mul_right framer.stride before
  rw [Nat.succ_mul] at slots
  exact Bytes.slice_resize_inside _ slots

theorem block_resize
    {count : Nat}
    (before : index < count)
    (bytes : Bytes) :
    framer.block index (bytes.resize (count * framer.size.bytes)) =
      (framer.block index bytes).resize framer.size.bytes := by
  have blocks := Nat.mul_le_mul_right framer.size.bytes before
  rw [Nat.succ_mul] at blocks
  exact Bytes.slice_resize_inside _ blocks

theorem openSlot_resize
    {count : Nat}
    (before : index < count)
    (stored : Bytes) :
    framer.openSlot index (stored.resize (count * framer.stride)) =
      framer.decode (index * framer.size.bytes)
        ((framer.slot index stored).resize framer.stride) := by
  have positive := framer.stride_pos
  rw [openSlot, slot_resize before, if_neg]
  apply List.ne_nil_of_length_pos
  rwa [Bytes.length_resize]

/-- A row that is extended up to a slot is a row of frames again if the
extended slots open. -/
theorem Framed.extend
    {count : Nat}
    (framed : framer.Framed bytes stored)
    (opens : ∀ index, bytes.length / framer.size.bytes ≤ index →
      index < count →
        framer.openSlot index (stored.resize (count * framer.stride)) =
          (framer.openSlot index stored).map (·.resize framer.size.bytes)) :
    framer.Framed
      (bytes.resize (count * framer.size.bytes))
      (stored.resize (count * framer.stride)) := by
  constructor
  case length =>
    rw [Bytes.length_resize, Bytes.length_resize, rowLength_mul]
  case frame =>
    intro index there
    rw [Bytes.length_resize] at there
    have before := Nat.lt_of_mul_lt_mul_right there
    rw [slot_resize before, block_resize before]
    rcases Nat.lt_or_ge index (bytes.length / framer.size.bytes) with old | gap
    · have full := Nat.mul_le_of_le_div _ _ _ old
      have isFrame := framed.torn.full index full
      have blockLength : (framer.block index bytes).length =
          framer.size.bytes := by
        rw [block, Bytes.length_slice]
        rw [Nat.succ_mul] at full
        omega
      have slotLength : (framer.slot index stored).length =
          framer.stride := by
        rw [isFrame.length, blockLength]
        rfl
      rwa [← slotLength, ← blockLength, Bytes.resize_self, Bytes.resize_self]
    · have opened := opens index gap before
      rw [openSlot_of_framed framed, openSlot_resize before] at opened
      rcases framer.isFrame_of_decode opened with isFrame | ⟨padded, -, -⟩
      · exact isFrame
      · refine isFrame_resize (.inr padded) (framed.slot index) ?_
        rw [block, Bytes.length_slice]
        exact Nat.min_le_left _ _

/-- Without encryption every block of a hole opens. -/
theorem opensExtended_of_plain
    {offset : Nat}
    (plain : framer.scheme = .null ∨ framer.scheme = .nullPadded)
    (framed : framer.Framed bytes stored)
    (before : index < offset / framer.size.bytes) :
    framer.OpensExtended index stored offset := by
  unfold OpensExtended
  rw [openSlot_of_framed framed, openSlot_resize before]
  refine (isFrame_resize plain (framed.slot index) ?_).decode _
  rw [block, Bytes.length_slice]
  exact Nat.min_le_left _ _

end Framer

/-! ## What a write with a hole does -/

namespace Layer

open Align

variable
  {η : Type}
  {lower : Layer (Session η)}
  {path : Path}
  {shape : Attributes}
  {Holds : Bytes → η → Prop}
  (framer : Framer)
  (recorder : Nat)
  {session : Session η}
  {stored : Bytes}

/-- Reading a full block opens its slot, whatever is in it. -/
theorem framed_read_full
    (flat : FlatFile lower path shape
      (fun bytes session => Holds bytes session.storage))
    (handle : FileHandle)
    (index : Nat)
    (addresses : framer.Addresses (index * framer.size.bytes))
    (held : Holds stored session.storage) :
    (((lower.framed framer Session.drawNonce (Session.meter recorder)).read
      path handle (index * framer.size.bytes)
      framer.size.bytes).execute session).1 =
        (framer.openSlot index stored).map (·.take framer.size.bytes) := by
  rcases
      flat.read handle (index * framer.stride) framer.stride stored
        { session with ticks := session.ticks + 1 } held with
    ⟨reached, ran, -⟩
  dsimp only [framed, Meter.timed, Session.meter]
  rw [Action.execute_ofRun]
  dsimp only
  unfold Cipher.readBlock
  have whole : framer.storedLength framer.size.bytes = framer.stride := rfl
  rw [Framer.storedOffset_mul addresses, whole, Action.execute_bind, ran]
  unfold Framer.openSlot Framer.slot
  dsimp only
  split
  · rename_i none
    rw [if_pos (List.isEmpty_iff.mp none)]
    simp [Except.map]
  · rename_i some
    rw [if_neg (by simpa using some), Action.execute_bind]
    cases framer.decode (index * framer.size.bytes)
      (stored.slice (index * framer.stride) framer.stride) <;> rfl

/-- The logical size of a row of full slots, whatever is in them. -/
theorem framed_fileSize_full
    (flat : FlatFile lower path shape
      (fun bytes session => Holds bytes session.storage))
    (handle : Option FileHandle)
    {count : Nat}
    (held : Holds stored session.storage)
    (full : stored.length = count * framer.stride) :
    ((lower.framed framer Session.drawNonce
      (Session.meter recorder)).fileSize path handle).Answers session
        (count * framer.size.bytes)
        (fun reached => Holds stored reached.storage) := by
  dsimp only [framed]
  refine (flat.fileSize handle stored session held).bind
    fun reached found => ?_
  unfold Cipher.sizeOf Framer.logicalSize
  have positive := framer.stride_pos
  rw [full, Nat.mul_div_cancel _ positive, Nat.mul_mod_left]
  cases scheme : framer.scheme with
  | null =>
      have same : framer.stride = framer.size.bytes := by
        simp [Framer.stride, Framer.overhead, scheme]
      rw [same]
      exact .pure found
  | nullPadded =>
      have same : count * framer.stride - count * Framer.padLength =
          count * framer.size.bytes := by
        simp [Framer.stride, Framer.overhead, scheme, Nat.mul_add]
      dsimp only
      rw [if_neg (Nat.lt_irrefl 0), same]
      exact .pure found
  | _ => exact .pure found

theorem writePiece_at_end
    (flat : FlatFile lower path shape
      (fun bytes session => Holds bytes session.storage))
    (handle : FileHandle)
    {data : Bytes}
    {count : Nat}
    (addresses : framer.Addresses (count * framer.size.bytes))
    (held : Holds stored session.storage)
    (full : stored.length = count * framer.stride) :
    ∃ frame,
      framer.IsFrame frame data ∧
        (writePiece framer.size
          (lower.framed framer Session.drawNonce (Session.meter recorder))
          path handle (count * framer.size.bytes) data).Answers session
            data.length
            (fun reached => Holds (stored ++ frame) reached.storage) := by
  have inside : framer.size.inside (count * framer.size.bytes) = 0 :=
    Nat.mul_mod_left _ _
  have start : framer.size.start (count * framer.size.bytes) =
      count * framer.size.bytes := by
    rw [framer.size.start_eq, Nat.mul_div_cancel _ framer.size.positive]
  unfold writePiece
  dsimp only
  rw [inside, start]
  by_cases whole : data.length = framer.size.bytes
  · rcases
        framed_write framer recorder flat handle (count * framer.size.bytes)
          data held with
      ⟨frame, isFrame, answers⟩
    rw [Framer.storedOffset_mul addresses, ← full,
      Bytes.splice_at_end] at answers
    rw [if_pos ⟨rfl, whole⟩]
    exact ⟨frame, isFrame, answers⟩
  · rw [if_neg (fun covered => whole covered.2)]
    rcases
        framed_fileSize_full framer recorder flat
          (some handle) held full with
      ⟨reached, ran, found⟩
    rcases
        framed_write framer recorder flat handle (count * framer.size.bytes)
          data found with
      ⟨frame, isFrame, answers⟩
    rw [Framer.storedOffset_mul addresses, ← full,
      Bytes.splice_at_end] at answers
    refine ⟨frame, isFrame, Action.Answers.bind ⟨reached, ran, rfl⟩ ?_⟩
    rintro _ rfl
    simpa using answers

/-- Writing at the end of a row of full slots appends. -/
theorem writeFrom_at_end
    (flat : FlatFile lower path shape
      (fun bytes session => Holds bytes session.storage))
    (handle : FileHandle)
    (offset : Nat)
    (data : Bytes)
    (done : Nat)
    {count : Nat}
    (start : offset = count * framer.size.bytes)
    (addresses : framer.Addresses (offset + data.length))
    (held : Holds stored session.storage)
    (full : stored.length = count * framer.stride) :
    (writeFrom framer.size
      (lower.framed framer Session.drawNonce (Session.meter recorder))
      path handle offset data done).Answers session
        (done + data.length)
        (fun reached => ∃ tail, Holds (stored ++ tail) reached.storage) := by
  induction offset, data, done using writeFrom.induct framer.size
    generalizing count stored session with
  | case1 offset done =>
      rw [writeFrom, dif_pos rfl]
      exact .pure ⟨[], by rwa [List.append_nil]⟩
  | case2 offset data done nonempty piece =>
      rename_i ih
      subst start
      have room : framer.size.room (count * framer.size.bytes) =
          framer.size.bytes := by
        rw [BlockSize.room, Nat.mul_mod_left, Nat.sub_zero]
      have first :
          data.take (framer.size.room (count * framer.size.bytes)) = piece :=
        rfl
      clear_value piece
      rw [writeFrom, dif_neg nonempty, first]
      rw [room] at first
      rcases
          writePiece_at_end framer recorder flat handle
            (addresses.mono (Nat.le_add_right _ _)) held full with
        ⟨frame, isFrame, answers⟩
      refine answers.bind fun reached found => ?_
      rw [if_neg (Nat.lt_irrefl _)]
      have pieceLength : piece.length = min framer.size.bytes data.length := by
        rw [← first, List.length_take]
      rcases Nat.lt_or_ge data.length framer.size.bytes with short | long
      · have nothing : data.drop piece.length = [] :=
          List.drop_eq_nil_of_le (by omega)
        have all : piece.length = data.length := by omega
        rw [nothing, all, writeFrom, dif_pos rfl]
        exact .pure ⟨frame, found⟩
      · have whole : piece.length = framer.size.bytes := by omega
        have beyond : framer.Addresses
            (count * framer.size.bytes + piece.length +
              (data.drop piece.length).length) :=
          addresses.mono (by rw [List.length_drop]; omega)
        have rest := ih 0 (by rw [whole, Nat.succ_mul]) beyond found (by
          rw [List.length_append, full, isFrame.length, whole, Nat.succ_mul]
          rfl)
        have length : done + piece.length + (data.drop piece.length).length =
            done + data.length := by
          rw [List.length_drop]
          omega
        rw [length] at rest
        refine rest.weaken ?_
        rintro final ⟨tail, kept⟩
        exact ⟨frame ++ tail, by rwa [← List.append_assoc]⟩

/-- A write that starts with a full block passes the block on, wherever the
file ends, and goes on behind it. -/
theorem writeFrom_full_block
    (flat : FlatFile lower path shape
      (fun bytes session => Holds bytes session.storage))
    (handle : FileHandle)
    {data : Bytes}
    (count : Nat)
    (addresses : framer.Addresses (count * framer.size.bytes))
    (held : Holds stored session.storage)
    (long : framer.size.bytes ≤ data.length) :
    ∃ frame,
      framer.IsFrame frame (data.take framer.size.bytes) ∧
        ∀ (answer : Nat) (after : Session η → Prop),
          (∀ reached,
            Holds (stored.splice (count * framer.stride) frame)
              reached.storage →
            (writeFrom framer.size
              (lower.framed framer Session.drawNonce (Session.meter recorder))
              path handle ((count + 1) * framer.size.bytes)
              (data.drop framer.size.bytes) framer.size.bytes).Answers
                reached answer after) →
          (writeFrom framer.size
            (lower.framed framer Session.drawNonce (Session.meter recorder))
            path handle (count * framer.size.bytes) data 0).Answers session
              answer after := by
  have positive := framer.size.positive
  have inside : framer.size.inside (count * framer.size.bytes) = 0 :=
    Nat.mul_mod_left _ _
  have start : framer.size.start (count * framer.size.bytes) =
      count * framer.size.bytes := by
    rw [framer.size.start_eq, Nat.mul_div_cancel _ positive]
  have room : framer.size.room (count * framer.size.bytes) =
      framer.size.bytes := by
    rw [BlockSize.room, Nat.mul_mod_left, Nat.sub_zero]
  have pieceLength : (data.take framer.size.bytes).length =
      framer.size.bytes := by
    rw [List.length_take]
    omega
  have nonempty : data ≠ [] := by
    rintro rfl
    simp at long
    omega
  rcases
      framed_write framer recorder flat handle (count * framer.size.bytes)
        (data.take framer.size.bytes) held with
    ⟨frame, isFrame, answers⟩
  rw [Framer.storedOffset_mul addresses] at answers
  refine ⟨frame, isFrame, fun answer after rest => ?_⟩
  rw [writeFrom, dif_neg nonempty, room]
  unfold writePiece
  dsimp only
  rw [inside, start, if_pos ⟨rfl, pieceLength⟩]
  refine answers.bind fun reached found => ?_
  rw [if_neg (Nat.lt_irrefl _), pieceLength, Nat.zero_add, ← Nat.succ_mul]
  exact rest reached found

/-- A write that leaves a hole fills it with zeros and writes all its bytes
behind it. -/
theorem writeFrom_past_end
    (flat : FlatFile lower path shape
      (fun bytes session => Holds bytes session.storage))
    (handle : FileHandle)
    {data : Bytes}
    {count : Nat}
    (addresses :
      framer.Addresses (count * framer.size.bytes + data.length))
    (held : Holds stored session.storage)
    (past : stored.length ≤ count * framer.stride)
    (long : framer.size.bytes ≤ data.length) :
    (writeFrom framer.size
      (lower.framed framer Session.drawNonce (Session.meter recorder))
      path handle (count * framer.size.bytes) data 0).Answers session
        data.length
        (fun reached => ∃ tail,
          Holds (stored.resize (count * framer.stride) ++ tail)
            reached.storage) := by
  rcases
      writeFrom_full_block framer recorder flat handle count
        (addresses.mono (Nat.le_add_right _ _)) held long with
    ⟨frame, isFrame, written⟩
  have pieceLength : (data.take framer.size.bytes).length =
      framer.size.bytes := by
    rw [List.length_take]
    omega
  have frameLength : frame.length = framer.stride := by
    rw [isFrame.length, pieceLength]
    rfl
  have appended : stored.splice (count * framer.stride) frame =
      stored.resize (count * framer.stride) ++ frame := by
    rw [Bytes.splice_of_ne_nil, List.drop_eq_nil_of_le (by omega),
      List.append_nil]
    apply List.ne_nil_of_length_pos
    rw [frameLength]
    exact framer.stride_pos
  refine written _ _ fun reached found => ?_
  rw [appended] at found
  have ends : (count + 1) * framer.size.bytes +
      (data.drop framer.size.bytes).length =
        count * framer.size.bytes + data.length := by
    rw [List.length_drop, Nat.succ_mul]
    omega
  have rest := writeFrom_at_end framer recorder flat handle
    ((count + 1) * framer.size.bytes) (data.drop framer.size.bytes)
    framer.size.bytes rfl (by rwa [ends]) found (by
      rw [List.length_append, Bytes.length_resize, frameLength, Nat.succ_mul])
  rw [List.length_drop, Nat.add_sub_cancel' long] at rest
  refine rest.weaken ?_
  rintro final ⟨tail, kept⟩
  exact ⟨frame ++ tail, by rwa [← List.append_assoc]⟩

/-- If the extended slots open, a write that leaves a hole writes to the
extended string. -/
theorem writeFrom_past_end_framed
    (flat : FlatFile lower path shape
      (fun bytes session => Holds bytes session.storage))
    (isFile : shape.isFile)
    (handle : FileHandle)
    {bytes data : Bytes}
    {count : Nat}
    (addresses :
      framer.Addresses (count * framer.size.bytes + data.length))
    (framed : framer.Framed bytes stored)
    (held : Holds stored session.storage)
    (past : bytes.length ≤ count * framer.size.bytes)
    (long : framer.size.bytes ≤ data.length)
    (opens : ∀ index, bytes.length / framer.size.bytes ≤ index →
      index < count →
        framer.openSlot index (stored.resize (count * framer.stride)) =
          (framer.openSlot index stored).map (·.resize framer.size.bytes)) :
    (writeFrom framer.size
      (lower.framed framer Session.drawNonce (Session.meter recorder))
      path handle (count * framer.size.bytes) data 0).Answers session
        data.length
        (HoldsFramed framer Holds
          (bytes.splice (count * framer.size.bytes) data)) := by
  rcases
      writeFrom_full_block framer recorder flat handle count
        (addresses.mono (Nat.le_add_right _ _)) held long with
    ⟨frame, isFrame, written⟩
  have positive := framer.size.positive
  have pieceLength : (data.take framer.size.bytes).length =
      framer.size.bytes := by
    rw [List.length_take]
    omega
  have pieceNonempty : data.take framer.size.bytes ≠ [] :=
    List.ne_nil_of_length_pos (by omega)
  have frameNonempty : frame ≠ [] := by
    apply List.ne_nil_of_length_pos
    rw [isFrame.length, pieceLength]
    exact framer.stride_pos
  have pastRow : stored.length ≤ count * framer.stride := by
    rw [framed.length, ← framer.rowLength_mul]
    exact framer.rowLength_mono past
  have first := (framed.extend opens).splice
    (Nat.le_of_eq (Bytes.length_resize _ _).symm) pieceNonempty
    (Nat.le_of_eq pieceLength) (by rw [pieceLength]; omega) isFrame
  rw [Bytes.splice_resize _ past pieceNonempty,
    Bytes.splice_resize _ pastRow frameNonempty] at first
  refine written _ _ fun reached found => ?_
  have ends : (count + 1) * framer.size.bytes =
      count * framer.size.bytes + (data.take framer.size.bytes).length := by
    rw [pieceLength, Nat.succ_mul]
  have length :
      (bytes.splice (count * framer.size.bytes)
        (data.take framer.size.bytes)).length =
          max bytes.length ((count + 1) * framer.size.bytes) := by
    rw [Bytes.length_splice, if_neg pieceNonempty, ends]
  have dropped := List.length_drop (i := framer.size.bytes) (l := data)
  have rest := writeFrom_answers
    (framed_blockFile framer recorder flat isFile) handle
    ((count + 1) * framer.size.bytes) (data.drop framer.size.bytes)
    framer.size.bytes
    ⟨addresses.mono (by omega), _, first, found⟩
    (.inr (addresses.mono (by omega)))
    (.inr (.inl (by rw [length]; exact Nat.le_max_right _ _)))
  rwa [ends, Bytes.splice_splice, List.take_append_drop, List.length_drop,
    Nat.add_sub_cancel' long, ← ends] at rest

end Layer

end Strata
