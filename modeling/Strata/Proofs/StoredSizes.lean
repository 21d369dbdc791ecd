import Strata.Proofs.AlignedCipher

/-!
# Sizes of stored files

The frames of a string lie one behind the other and fill the stored file, each
byte of it in the frame of exactly one block.  So the stored size grows with
every byte of the string, and the string's size is found again from it.  Only
an encrypted file that ends inside a block has to be looked into, once, at its
last frame.  All of this needs the places of the frames to be words.  Where a
row of frames is longer than that, the stored size starts over, so that a
longer string may have the smaller stored file.

A stored file that was not written to its end may have any size.  Where frames
are padded, what is left of the last one may be shorter than its padding, and
what is missing is then taken from the blocks in front of it.
-/

namespace Strata.Framer

variable (framer : Framer)

/-! ## The places of frames -/

/-- Where the frame of a block starts. -/
def frameStart
    (index : Nat) :
    Nat :=
  framer.storedOffset (index * framer.size.bytes)

/-- The length of the frame of a block of a string of `size` bytes. -/
def frameLength
    (size index : Nat) :
    Nat :=
  framer.storedLength
    (min framer.size.bytes (size - index * framer.size.bytes))

/-- A position of the stored file belongs to the frame of a block of a string
of `size` bytes. -/
structure Covers
    (size index position : Nat) :
    Prop where
  block : index * framer.size.bytes < size
  start : framer.frameStart index ≤ position
  finish : position < framer.frameStart index + framer.frameLength size index

variable
  {framer}
  {size index position : Nat}

theorem frameStart_eq
    (addresses : framer.Addresses (index * framer.size.bytes)) :
    framer.frameStart index = index * framer.stride :=
  storedOffset_mul addresses

theorem frameLength_le :
    framer.frameLength size index ≤ framer.stride :=
  Nat.add_le_add_right (Nat.min_le_left _ _) _

/-- What follows the start of a frame is the frame, and the frames behind
it. -/
theorem rowLength_frame
    (block : index * framer.size.bytes < size) :
    framer.rowLength size =
      index * framer.stride + framer.frameLength size index +
        framer.rowLength
          (size - index * framer.size.bytes - framer.size.bytes) := by
  have split := framer.rowLength_mul_add index
    (size - index * framer.size.bytes)
  rw [Nat.add_sub_cancel' (Nat.le_of_lt block)] at split
  rw [split, framer.rowLength_step (Nat.sub_pos_of_lt block), ← Nat.add_assoc]
  rfl

section Addresses

variable (addresses : framer.Addresses size)

include addresses

theorem Covers.frameStart_eq
    (covers : framer.Covers size index position) :
    framer.frameStart index = index * framer.stride :=
  Framer.frameStart_eq (addresses.mono (Nat.le_of_lt covers.block))

theorem Covers.lt_storedSize
    (covers : framer.Covers size index position) :
    position < framer.storedSize size := by
  have finish := covers.finish
  rw [covers.frameStart_eq addresses] at finish
  rw [storedSize_of_addresses addresses, rowLength_frame covers.block]
  omega

/-- A frame is no longer than a slot, so that the slot of a position is the
only one whose frame can hold it. -/
theorem Covers.index_eq
    (covers : framer.Covers size index position) :
    index = position / framer.stride := by
  have start := covers.start
  have finish := covers.finish
  have fits : framer.frameLength size index ≤ framer.stride := frameLength_le
  rw [covers.frameStart_eq addresses] at start finish
  symm
  rw [Nat.div_eq_iff framer.stride_pos]
  omega

theorem covers_slot
    (inside : position < framer.storedSize size) :
    framer.Covers size (position / framer.stride) position := by
  rw [storedSize_of_addresses addresses] at inside
  have start := Nat.div_mul_le_self position framer.stride
  have slot := Nat.lt_div_mul_add framer.stride_pos (a := position)
  have block : position / framer.stride * framer.size.bytes < size := by
    by_contra past
    have before := framer.rowLength_mono (Nat.le_of_not_lt past)
    rw [rowLength_mul] at before
    omega
  have placed := frameStart_eq (addresses.mono (Nat.le_of_lt block))
  refine ⟨block, placed ▸ start, ?_⟩
  rw [placed]
  -- A frame that is shorter than its slot is the last one.
  rcases Nat.le_total framer.size.bytes
      (size - position / framer.stride * framer.size.bytes) with full | last
  · rwa [frameLength, Nat.min_eq_left full]
  · have whole := rowLength_frame block
    rw [Nat.sub_eq_zero_of_le last, rowLength_zero, Nat.add_zero] at whole
    rwa [whole] at inside

theorem existsUnique_covers
    (inside : position < framer.storedSize size) :
    ∃! index, framer.Covers size index position :=
  ⟨_, covers_slot addresses inside,
    fun _ covers => covers.index_eq addresses⟩

end Addresses

/-- Where frames have an overhead, all offsets of a block lead to where its
frame is looked for. -/
theorem storedOffset_inside
    (framed : framer.mode ≠ .null)
    {inside : Nat}
    (fits : inside < framer.size.bytes) :
    framer.storedOffset (index * framer.size.bytes + inside) =
      framer.frameStart index := by
  have quotient : (index * framer.size.bytes + inside) / framer.size.bytes =
      index := by
    rw [Nat.mul_comm, Nat.mul_add_div framer.size.positive,
      Nat.div_eq_of_lt fits, Nat.add_zero]
  unfold frameStart storedOffset
  rw [quotient, Nat.mul_div_cancel index framer.size.positive]
  unfold mode at framed
  cases scheme : framer.scheme with
  | null => simp [scheme] at framed
  | _ => rfl

variable (framer)

/-! ## Growth -/

theorem overhead_le :
    framer.overhead ≤ 28 := by
  unfold overhead
  split <;> decide

/-- The step that takes a row of frames out of the words makes the stored size
smaller. -/
theorem addresses_succ
    {size : Nat}
    (word : size + 1 < wordCount)
    (addresses : framer.Addresses size)
    (grows : framer.storedSize size < framer.storedSize (size + 1)) :
    framer.Addresses (size + 1) := by
  have step := (framer.rowLength_succ size).2
  have wide := framer.overhead_le
  rw [storedSize_of_addresses addresses] at grows
  unfold Addresses at addresses ⊢
  unfold storedSize at grows
  cases scheme : framer.scheme with
  | null => rwa [framer.rowLength_of_null scheme]
  | _ =>
      simp only [scheme, wrapped] at grows
      unfold wordCount at *
      omega

/-- The stored size grows with every byte just as long as the places of the
frames are words. -/
theorem storedSize_grows_iff
    {size : Nat}
    (word : size < wordCount) :
    (∀ smaller larger, smaller < larger → larger ≤ size →
        framer.storedSize smaller < framer.storedSize larger) ↔
      framer.Addresses size := by
  constructor
  · intro grows
    induction size with
    | zero => exact framer.addresses_zero
    | succ size ih =>
        refine framer.addresses_succ word ?_
          (grows size (size + 1) (Nat.lt_succ_self _) (Nat.le_refl _))
        exact ih (by omega) fun smaller larger less fits =>
          grows smaller larger less (by omega)
  · intro addresses smaller larger less fits
    rw [storedSize_of_addresses (addresses.mono fits),
      storedSize_of_addresses (addresses.mono (by omega))]
    exact framer.rowLength_strictMono less

/-! ## The way back -/

variable {σ : Type}

/-- Reading frames, with each request for one noted behind those before it. -/
def asking
    (readFrame : (offset length : Nat) → Action σ Bytes)
    (offset length : Nat) :
    Action (σ × List (Nat × Nat)) Bytes :=
  Action.ofRun fun (state, asked) =>
    let (answer, reached) := (readFrame offset length).execute state
    (answer, (reached, asked ++ [(offset, length)]))

variable
  {framer}
  (readFrame : (offset length : Nat) → Action σ Bytes)

/-- The last frame of a string that ends inside a block. -/
theorem frameLength_last :
    framer.frameLength size (size / framer.size.bytes) =
      framer.storedLength (size % framer.size.bytes) := by
  have short := Nat.mod_lt size framer.size.positive
  have whole := Nat.div_add_mod' size framer.size.bytes
  rw [frameLength]
  congr 1
  omega

/-- An encrypted file that ends inside a block has its last frame read, and the
size is what comes of that. -/
theorem logicalSize_asks
    (addresses : framer.Addresses size)
    (encrypts : framer.Encrypts)
    (partly : 0 < size % framer.size.bytes) :
    framer.logicalSize readFrame (framer.rowLength size) =
      readFrame (framer.frameStart (size / framer.size.bytes))
          (framer.frameLength size (size / framer.size.bytes)) >>= fun frame =>
        Action.ofExcept (framer.sizeWith (framer.rowLength size) frame) := by
  have short := framer.rowLength_mod size
  have start := frameStart_eq
    (addresses.mono (Nat.div_mul_le_self size framer.size.bytes))
  rw [if_pos partly] at short
  have some : framer.storedLength (size % framer.size.bytes) ≠ 0 := by
    unfold storedLength
    omega
  rw [frameLength_last, start, ← framer.rowLength_div size, ← short]
  rw [← short] at some
  unfold Encrypts mode at encrypts
  unfold logicalSize
  cases scheme : framer.scheme with
  | null => simp [scheme] at encrypts
  | nullPadded => simp [scheme] at encrypts
  | _ =>
      dsimp only
      rw [if_neg some]
      refine bind_congr fun frame => ?_
      unfold sizeWith
      dsimp only
      split
      · rfl
      · cases framer.decode _ frame <;> rfl

/-- The last frame gives the size. -/
theorem sizeWith_rowLength
    {frame block : Bytes}
    (isFrame : framer.IsFrame frame block)
    (last : block.length = size % framer.size.bytes)
    (partly : 0 < size % framer.size.bytes) :
    framer.sizeWith (framer.rowLength size) frame = .ok size := by
  have whole := Nat.div_add_mod' size framer.size.bytes
  have length := isFrame.length
  rw [last] at length
  unfold sizeWith
  rw [framer.rowLength_div, framer.rowLength_mod, if_pos partly, length]
  simp only [Nat.lt_irrefl, if_false, isFrame.decode, Except.map, last, whole]

variable (framer)

/-- The size that a file of padded frames is taken to have: the blocks of its
whole frames and what is left of the next one, less the padding of that. -/
def unpadded
    (stored : Nat) :
    Nat :=
  stored / framer.stride * framer.size.bytes + stored % framer.stride -
    if 0 < stored % framer.stride then padLength else 0

/-- Behind whole frames a stored file ends in a piece that is shorter than the
padding of a frame. -/
structure EndsInPadding
    (stored : Nat) :
    Prop where
  whole : framer.stride ≤ stored
  some : 0 < stored % framer.stride
  short : stored % framer.stride < padLength

section Padded

variable
  {framer}
  (padded : framer.scheme = .nullPadded)
  {stored : Nat}

include padded

theorem stride_of_padded :
    framer.stride = framer.size.bytes + padLength := by
  simp only [stride, overhead, padded]

theorem logicalSize_padded :
    framer.logicalSize readFrame stored = return framer.unpadded stored := by
  have slots := Nat.div_add_mod' stored framer.stride
  have wide := stride_of_padded padded
  unfold logicalSize unpadded
  generalize stored % framer.stride = rest at *
  generalize stored / framer.stride = full at *
  rw [wide, Nat.mul_add] at slots
  simp only [padded]
  congr 1
  split
  · rw [Nat.add_one_mul]
    omega
  · omega

theorem unpadded_le :
    framer.unpadded stored ≤
      stored / framer.stride * framer.size.bytes + framer.size.bytes := by
  have less := Nat.mod_lt stored framer.stride_pos
  have wide := stride_of_padded padded
  unfold unpadded
  split <;> omega

/-- The blocks of the whole frames are counted, unless some of their bytes
stand in for padding that is not there. -/
theorem le_unpadded_iff :
    stored / framer.stride * framer.size.bytes ≤ framer.unpadded stored ↔
      ¬ framer.EndsInPadding stored := by
  have wide := stride_of_padded padded
  have positive := framer.size.positive
  have slots := Nat.div_add_mod' stored framer.stride
  constructor
  · rintro counted ⟨whole, some, short⟩
    -- There is a whole frame, so that its block has a byte to lose.
    have frames := Nat.mul_le_mul_right framer.size.bytes
      (Nat.div_pos whole framer.stride_pos)
    unfold unpadded at counted
    rw [if_pos some] at counted
    omega
  · intro kept
    unfold unpadded
    split
    · rename_i some
      rcases Nat.lt_or_ge stored framer.stride with less | whole
      · rw [Nat.div_eq_of_lt less, Nat.zero_mul]
        exact Nat.zero_le _
      · have long : padLength ≤ stored % framer.stride :=
          Nat.le_of_not_lt fun short => kept ⟨whole, some, short⟩
        omega
    · omega

/-- A file is taken to be as long as every shorter one, at least, unless it
ends in padding. -/
theorem unpadded_mono_iff :
    (∀ shorter ≤ stored, framer.unpadded shorter ≤ framer.unpadded stored) ↔
      ¬ framer.EndsInPadding stored := by
  rw [← le_unpadded_iff padded]
  have slots := Nat.div_add_mod' stored framer.stride
  constructor
  · intro mono
    -- The whole frames alone are counted in full.
    have frames := mono (stored / framer.stride * framer.stride) (by omega)
    rwa [unpadded, Nat.mul_mod_left, if_neg (Nat.lt_irrefl 0),
      Nat.mul_div_cancel _ framer.stride_pos] at frames
  · intro kept shorter less
    have quotients := Nat.div_le_div_right (c := framer.stride) less
    rcases Nat.lt_or_eq_of_le quotients with before | same
    · have blocks := Nat.mul_le_mul_right framer.size.bytes before
      have bounded : framer.unpadded shorter ≤ _ :=
        unpadded_le padded
      rw [Nat.succ_mul] at blocks
      omega
    · have rests : shorter % framer.stride ≤ stored % framer.stride := by
        rw [Nat.mod_eq_sub, Nat.mod_eq_sub, same]
        omega
      unfold unpadded at kept ⊢
      rw [same]
      split at kept
      · rename_i some
        rw [if_pos some]
        split <;> omega
      · rename_i none
        have gone : shorter % framer.stride = 0 := by omega
        rw [if_neg none, gone, if_neg (Nat.lt_irrefl 0)]
        omega

end Padded

/--
The size that a file of padded frames is taken to have follows from its stored
size, whatever that is, and is never more than a block above the blocks of its
whole frames.  It counts these blocks in full just when the file does not end
in padding, and just then it is no less than that of any shorter file.
-/
theorem padded_size_keeps_blocks_iff
    (size : BlockSize) :
    let framer : Framer := ⟨size, .nullPadded⟩
    ∃ found : Nat → Nat,
      (∀ (σ : Type) (readFrame : Nat → Nat → Action σ Bytes) (stored : Nat),
        framer.logicalSize readFrame stored = return found stored) ∧
      ∀ stored,
        found stored ≤
            stored / (size.bytes + 16) * size.bytes + size.bytes ∧
          (stored / (size.bytes + 16) * size.bytes ≤ found stored ↔
            ¬ framer.EndsInPadding stored) ∧
          ((∀ shorter ≤ stored, found shorter ≤ found stored) ↔
            ¬ framer.EndsInPadding stored) := by
  intro framer
  have padded : framer.scheme = .nullPadded := rfl
  have stride : framer.stride = size.bytes + 16 := stride_of_padded padded
  rw [← stride]
  exact ⟨framer.unpadded,
    fun _ readFrame _ => logicalSize_padded readFrame padded,
    fun _ => ⟨unpadded_le padded, le_unpadded_iff padded,
      unpadded_mono_iff padded⟩⟩

/-- Behind one frame of sixteen bytes, the whole padding of another one costs
nothing, and a single byte of it costs bytes of the block. -/
theorem padded_size_keeps_blocks_iff_of_sixteen_bytes :
    ∃ found : Nat → Nat,
      (∀ readFrame : Nat → Nat → Action Unit Bytes,
        (⟨⟨16, by decide⟩, .nullPadded⟩ : Framer).logicalSize readFrame 33 =
          return found 33) ∧
        16 ≤ found 48 ∧ ¬ 16 ≤ found 33 := by
  rcases padded_size_keeps_blocks_iff ⟨16, by decide⟩ with ⟨found, known, counts⟩
  refine ⟨found, fun readFrame => known Unit readFrame 33, ?_, ?_⟩
  · exact (counts 48).2.1.mpr fun ends => absurd ends.short (by decide)
  · intro counted
    exact (counts 33).2.1.mp counted ⟨by decide, by decide, by decide⟩

/-- Two blocks are written, and one byte of the second frame arrives.  The file
is then taken to have one byte, although the frame of the first block is
there. -/
theorem padded_size_loses_block :
    ((alignedCipher ⟨⟨16, by decide⟩, .nullPadded⟩ 0).run .root
        [.write ⟨[]⟩ 0 (Bytes.zeros 32), .fileSize none]
        { storage :=
            { files := [(.root, .empty)]
              writeLimits := [.unlimited, .atMost 1] } }).map (·.answer) =
        [.error (.shortTransfer 32 1), .ok (.size 1)] ∧
      ¬ 33 / (16 + 16) * 16 ≤ 1 :=
  ⟨by decide +kernel, by decide⟩

end Strata.Framer
