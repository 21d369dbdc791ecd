import Strata.Proofs.CipherStage

/-!
# Transfers of blocks

A layer may be asked for a block at a time, in requests that take in all that
is stored of the block.  What such requests rely on is said here, and only
about requests that succeed: any of them may fail, and what is read and
written may be anything of the right length.  After a cut, or a write that
leaves a hole, no more is known of the file than how long it is; and a layer
may not have a place for every block, so that nothing is known any more once a
block was written that has none.

A flat file moves the blocks of any size.  The cipher stage moves blocks if the
layer below it moves their frames, and has places for those whose frames have
an address.
-/

namespace Strata

/-- A request for `length` bytes at an offset, made of a file that holds
`held` bytes, is about one block and takes in all that is held of it. -/
structure BlockSize.Spans
    (size : BlockSize)
    (held offset length : Nat) :
    Prop where
  even : size.inside offset = 0
  nonempty : 0 < length
  fits : length ≤ size.bytes
  covers : min size.bytes (held - offset) ≤ length

/-- A block starts on a block boundary. -/
theorem BlockSize.inside_start
    (size : BlockSize)
    (offset : Nat) :
    size.inside (size.start offset) = 0 := by
  rw [size.start_eq]
  exact Nat.mul_mod_left _ _

/-- A request that is about one block starts at a multiple of the block
size. -/
theorem BlockSize.Spans.index_mul
    {size : BlockSize}
    {held offset length : Nat}
    (spans : size.Spans held offset length) :
    offset / size.bytes * size.bytes = offset :=
  Nat.div_mul_cancel (Nat.dvd_of_mod_eq_zero spans.even)

namespace Framer

variable
  (framer : Framer)
  {held offset length : Nat}

/-- The slots of frames are blocks of the file below. -/
def slots :
    BlockSize :=
  ⟨framer.stride, framer.stride_pos⟩

variable {framer}

/-- A request about one block starts at the place of its frame. -/
theorem storedOffset_of_spans
    (spans : framer.size.Spans held offset length)
    (addresses : framer.Addresses offset) :
    framer.storedOffset offset =
      offset / framer.size.bytes * framer.stride := by
  have placed : framer.Addresses
      (offset / framer.size.bytes * framer.size.bytes) := by
    rwa [spans.index_mul]
  have place := storedOffset_mul placed
  rwa [spans.index_mul] at place

/-- What the row of a file holds from the frame of a block on. -/
theorem rowLength_sub
    (spans : framer.size.Spans held offset length)
    (addresses : framer.Addresses offset) :
    framer.rowLength held - framer.storedOffset offset =
      framer.rowLength (held - offset) := by
  rw [storedOffset_of_spans spans addresses, ← framer.rowLength_mul,
    spans.index_mul]
  rcases Nat.le_total held offset with past | there
  · rw [Nat.sub_eq_zero_of_le past, rowLength_zero]
    exact Nat.sub_eq_zero_of_le (framer.rowLength_mono past)
  · have row := framer.rowLength_mul_add (offset / framer.size.bytes)
      (held - offset)
    rw [← framer.rowLength_mul, spans.index_mul, Nat.add_sub_cancel' there]
      at row
    omega

/-- The frames of all blocks of `size` bytes have addresses. -/
def Placed
    (framer : Framer)
    (size : Nat) :
    Prop :=
  ∀ offset < size, framer.size.inside offset = 0 → framer.Addresses offset

theorem Addresses.placed
    (addresses : framer.Addresses held) :
    framer.Placed held :=
  fun _ before _ => addresses.mono (Nat.le_of_lt before)

/-- A block of which the frame has an address adds none that has not. -/
theorem Placed.max
    (placed : framer.Placed held)
    (spans : framer.size.Spans held offset length)
    (addresses : framer.Addresses offset) :
    framer.Placed (Max.max held (offset + length)) := by
  intro other before even
  rcases Nat.lt_or_ge other held with there | behind
  · exact placed other there even
  refine addresses.mono (Nat.le_of_not_lt fun past => ?_)
  -- A block that starts behind another one starts a whole block later.
  have later : framer.size.bytes ∣ other - offset :=
    Nat.dvd_sub (Nat.dvd_of_mod_eq_zero even)
      (Nat.dvd_of_mod_eq_zero spans.even)
  have far := Nat.le_of_dvd (Nat.sub_pos_of_lt past) later
  have fits := spans.fits
  omega

theorem storedOffset_lt
    (spans : framer.size.Spans held offset length)
    (addresses : framer.Addresses offset)
    (there : offset < held) :
    framer.storedOffset offset < framer.rowLength held := by
  rw [storedOffset_of_spans spans addresses, ← framer.rowLength_mul,
    spans.index_mul]
  exact framer.rowLength_strictMono there

/-- The frame of a block takes in all that is held of its slot. -/
theorem spans_slot
    (spans : framer.size.Spans held offset length)
    (addresses : framer.Addresses offset) :
    framer.slots.Spans (framer.rowLength held) (framer.storedOffset offset)
      (framer.storedLength length) where
  even := by
    rw [storedOffset_of_spans spans addresses]
    exact Nat.mul_mod_left _ _
  nonempty := Nat.lt_of_lt_of_le spans.nonempty (Nat.le_add_right _ _)
  fits := Nat.add_le_add_right spans.fits _
  covers := by
    have covers := spans.covers
    rw [rowLength_sub spans addresses]
    rcases Nat.eq_zero_or_pos (held - offset) with none | some
    · rw [none, rowLength_zero]
      omega
    rcases Nat.le_total (held - offset) framer.size.bytes with short | long
    · rw [framer.rowLength_block some short]
      unfold storedLength
      omega
    · refine Nat.le_trans (Nat.min_le_left _ _) ?_
      exact Nat.add_le_add_right (by omega) _

/-- What is stored of the frame of a block that is held at least in part. -/
theorem length_frame_at
    (spans : framer.size.Spans held offset length)
    (addresses : framer.Addresses offset)
    (there : offset < held) :
    min (framer.storedLength length)
        (framer.rowLength held - framer.storedOffset offset) =
      framer.storedLength (min length (held - offset)) := by
  have fits := spans.fits
  have covers := spans.covers
  rw [rowLength_sub spans addresses]
  rcases Nat.le_total (held - offset) framer.size.bytes with short | long
  · rw [framer.rowLength_block (Nat.sub_pos_of_lt there) short]
    unfold storedLength
    omega
  · have full := framer.rowLength_mono long
    rw [framer.rowLength_block framer.size.positive (Nat.le_refl _)] at full
    unfold storedLength at *
    omega

/-- Where the frame of a block ends in the row. -/
theorem storedOffset_add
    (spans : framer.size.Spans held offset length)
    (addresses : framer.Addresses offset) :
    framer.storedOffset offset + framer.storedLength length =
      framer.rowLength (offset + length) := by
  have row := framer.rowLength_mul_add (offset / framer.size.bytes) length
  rw [spans.index_mul, framer.rowLength_block spans.nonempty spans.fits,
    ← storedOffset_of_spans spans addresses] at row
  exact row.symm

end Framer

namespace Layer

/--
The blocks of a file are moved as a whole.  `Places` are the offsets of the
blocks that the layer has a place for, and `Cuts` the lengths that a file can
be cut to.  `Sized` says how long the file is, and `Holds` besides that every
block of it is there.  A read delivers what is held of the block that it is
about, and a write takes all of its bytes; the blocks stay there if it starts
no block past the end.  Any request may fail, and one that fails may do
anything.
-/
structure MovesBlocks
    {σ : Type}
    (layer : Layer σ)
    (path : Path)
    (size : BlockSize)
    (Handles : FileHandle → Prop)
    (Places Cuts : Nat → Prop)
    (Holds Sized : Nat → σ → Prop) :
    Prop where
  earlier : ∀ later offset, Places later → offset ≤ later → Places offset
  sized : ∀ held state, Holds held state → Sized held state
  openFile : ∀ access held before opened after, Holds held before →
    (layer.openFile path access).execute before = (.ok opened, after) →
      Handles opened ∧ Holds held after
  release : ∀ handle held before after, Handles handle → Holds held before →
    (layer.release path handle).execute before = (.ok (), after) →
      Holds held after
  read : ∀ handle offset length held before found after,
    Handles handle → Holds held before →
    (layer.read path handle offset length).execute before =
        (.ok found, after) →
      Holds held after ∧
        (size.Spans held offset length → offset < held →
          found.length = min length (held - offset))
  readUnplaced : ∀ handle offset length before found after,
    Handles handle → ¬Places offset →
    (layer.read path handle offset length).execute before =
        (.ok found, after) →
      found.length ≤ length
  write : ∀ handle offset data held before count after,
    Handles handle → Sized held before → Places offset →
    size.Spans held offset data.length →
    (layer.write path handle offset data).execute before =
        (.ok count, after) →
      count = data.length ∧ Sized (max held (offset + data.length)) after ∧
        (Holds held before → offset ≤ held →
          Holds (max held (offset + data.length)) after)
  writeUnplaced : ∀ handle offset data before count after,
    Handles handle → ¬Places offset →
    (layer.write path handle offset data).execute before =
        (.ok count, after) →
      count = data.length
  truncate : ∀ handle target held before after,
    (∀ given ∈ handle, Handles given) → Holds held before → Cuts target →
    (layer.truncate path handle target).execute before = (.ok (), after) →
      Sized target after
  fileSize : ∀ handle held before found after,
    (∀ given ∈ handle, Handles given) → Holds held before →
    (layer.fileSize path handle).execute before = (.ok found, after) →
      found = held ∧ Holds held after
  evenSize : ∀ handle held before found after,
    (∀ given ∈ handle, Handles given) → Sized held before →
    held % size.bytes = 0 →
    (layer.fileSize path handle).execute before = (.ok found, after) →
      found = held ∧ Sized held after

/-! ## Flat files -/

section Flat

variable
  {σ : Type}
  {layer : Layer σ}
  {path : Path}
  {shape : Attributes}
  {HoldsBytes : Bytes → σ → Prop}

/-- A flat file moves blocks of any size, under any handle, and has a place for
each of them. -/
theorem FlatFile.movesBlocks
    (flat : FlatFile layer path shape HoldsBytes)
    (size : BlockSize) :
    MovesBlocks layer path size (fun _ => True) (fun _ => True)
      (fun _ => True)
      (fun held state => ∃ bytes, HoldsBytes bytes state ∧
        bytes.length = held)
      (fun held state => ∃ bytes, HoldsBytes bytes state ∧
        bytes.length = held) := by
  have sized : ∀ handle held before found after,
      (∃ bytes, HoldsBytes bytes before ∧ bytes.length = held) →
      (layer.fileSize path handle).execute before = (.ok found, after) →
        found = held ∧
          ∃ bytes, HoldsBytes bytes after ∧ bytes.length = held := by
    rintro handle _ before found after ⟨bytes, known, rfl⟩ ran
    have answers := flat.fileSize handle bytes before known
    rcases answers.eq_of_ok ran with ⟨rfl, holds⟩
    exact ⟨rfl, bytes, holds, rfl⟩
  constructor
  case earlier => exact fun _ _ _ _ => trivial
  case sized => exact fun _ _ holds => holds
  case openFile =>
    rintro access _ before opened after ⟨bytes, known, rfl⟩ ran
    rcases flat.openFile access bytes before known with ⟨_, answers⟩
    exact ⟨trivial, bytes, (answers.eq_of_ok ran).2, rfl⟩
  case release =>
    rintro handle _ before after - ⟨bytes, known, rfl⟩ ran
    have answers := flat.release handle bytes before known
    exact ⟨bytes, (answers.eq_of_ok ran).2, rfl⟩
  case read =>
    rintro handle offset length _ before found after - ⟨bytes, known, rfl⟩ ran
    have answers := flat.read handle offset length bytes before known
    rcases answers.eq_of_ok ran with ⟨rfl, holds⟩
    exact ⟨⟨bytes, holds, rfl⟩, fun _ _ => Bytes.length_slice _ _ _⟩
  case readUnplaced =>
    exact fun _ _ _ _ _ _ _ nowhere _ => absurd trivial nowhere
  case write =>
    rintro handle offset data _ before count after - ⟨bytes, known, rfl⟩ -
      spans ran
    have answers := flat.write handle offset data bytes before known
    rcases answers.eq_of_ok ran with ⟨rfl, holds⟩
    have length := Bytes.length_splice bytes offset data
    rw [if_neg (List.ne_nil_of_length_pos spans.nonempty)] at length
    exact ⟨rfl, ⟨_, holds, length⟩, fun _ _ => ⟨_, holds, length⟩⟩
  case writeUnplaced =>
    exact fun _ _ _ _ _ _ _ nowhere _ => absurd trivial nowhere
  case truncate =>
    rintro handle target _ before after - ⟨bytes, known, rfl⟩ - ran
    have answers := flat.truncate handle target bytes before known
    exact ⟨_, (answers.eq_of_ok ran).2, Bytes.length_resize _ _⟩
  case fileSize =>
    exact fun handle held before found after _ known =>
      sized handle held before found after known
  case evenSize =>
    exact fun handle held before found after _ known _ =>
      sized handle held before found after known

end Flat

/-! ## The cipher stage -/

section Framed

variable
  {η : Type}
  {lower : Layer (Session η)}
  {path : Path}
  {Handles : FileHandle → Prop}
  {Holds Sized : Nat → η → Prop}
  (framer : Framer)
  (recorder : Nat)

/-- The frame of a block, as far as its length goes. -/
theorem frameWith_ok
    {block frame : Bytes}
    {before after : Session η}
    (ran : (framer.frameWith Session.drawNonce block).execute before =
      (.ok frame, after)) :
    after.storage = before.storage ∧
      frame.length = framer.storedLength block.length := by
  rcases
      @frameWith_answers η (fun _ storage => storage = before.storage)
        framer before [] block rfl with
    ⟨expected, isFrame, answers⟩
  rcases answers.eq_of_ok ran with ⟨rfl, same⟩
  exact ⟨same, isFrame.length⟩

/-- A body that succeeds with a handle that was given or opened for it ran
while the file was what it was, and what it keeps is kept. -/
theorem MovesBlocks.withHandle_ok
    {σ α : Type}
    {layer : Layer σ}
    {path : Path}
    {size : BlockSize}
    {Handles : FileHandle → Prop}
    {Places Cuts : Nat → Prop}
    {Holds Sized : Nat → σ → Prop}
    (moves : MovesBlocks layer path size Handles Places Cuts Holds Sized)
    {handle : Option FileHandle}
    {access : Access}
    {body : FileHandle → Action σ α}
    {held : Nat}
    {before after : σ}
    {answer : α}
    (handles : ∀ given ∈ handle, Handles given)
    (known : Holds held before)
    (ran : (layer.withHandle path handle access body).execute before =
      (.ok answer, after)) :
    ∃ opened reached last,
      Handles opened ∧ Holds held reached ∧
        (body opened).execute reached = (.ok answer, last) ∧
        (Holds held last → Holds held after) := by
  cases handle with
  | some given =>
      exact ⟨given, before, after, handles given rfl, known, ran, id⟩
  | none =>
      rcases Action.execute_bind_eq_ok ran with ⟨opened, reached, first, rest⟩
      rcases Action.execute_finallyDo_eq_ok rest with ⟨last, looked, closed⟩
      rcases moves.openFile access held before opened reached known first with
        ⟨good, holds⟩
      exact ⟨opened, reached, last, good, holds, looked, fun kept =>
        moves.release opened held last after good kept closed⟩

/-- The logical size of a file that holds the row of `held` bytes is `held`,
unless the last frame cannot be opened. -/
theorem logicalSize_ok
    {σ : Type}
    {readFrame : Nat → Nat → Action σ Bytes}
    {Holds : σ → Prop}
    {held found : Nat}
    {before after : σ}
    (known : Holds before)
    (reads : ∀ reached frame last, Holds reached →
      (readFrame (framer.rowLength held / framer.stride * framer.stride)
          (framer.rowLength held % framer.stride)).execute reached =
        (.ok frame, last) →
      0 < framer.rowLength held % framer.stride →
        frame.length = framer.rowLength held % framer.stride ∧ Holds last)
    (ran : (framer.logicalSize readFrame (framer.rowLength held)).execute
      before = (.ok found, after)) :
    found = held ∧ Holds after := by
  by_cases plainly : ¬framer.Encrypts ∨ held % framer.size.bytes = 0
  · rw [Framer.logicalSize_known readFrame plainly] at ran
    rcases Action.execute_pure_eq_ok ran with ⟨rfl, rfl⟩
    exact ⟨rfl, known⟩
  have index := framer.rowLength_div held
  have short := framer.rowLength_mod held
  have whole := Nat.div_add_mod' held framer.size.bytes
  rw [not_or, not_not] at plainly
  rw [if_pos (Nat.pos_of_ne_zero plainly.2)] at short
  unfold Framer.Encrypts Framer.mode at plainly
  unfold Framer.logicalSize at ran
  rw [← index] at whole
  generalize framer.rowLength held % framer.stride = rest at *
  generalize framer.rowLength held / framer.stride = full at *
  dsimp only at ran
  have partly : rest ≠ 0 := by
    unfold Framer.storedLength at short
    omega
  cases scheme : framer.scheme with
  | null => simp [scheme] at plainly
  | nullPadded => simp [scheme] at plainly
  | _ =>
      simp only [scheme] at ran
      rw [if_neg partly] at ran
      rcases Action.execute_bind_eq_ok ran with ⟨frame, reached, read, ran⟩
      rcases reads _ _ _ known read (Nat.pos_of_ne_zero partly) with
        ⟨length, holds⟩
      rw [if_neg (by omega)] at ran
      rcases Action.execute_bind_eq_ok ran with ⟨block, last, opened, ran⟩
      rcases Prod.mk.inj opened with ⟨decoded, rfl⟩
      rcases Action.execute_pure_eq_ok ran with ⟨rfl, rfl⟩
      refine ⟨?_, holds⟩
      have framed := framer.length_of_decode decoded
      unfold Framer.storedLength at framed short
      omega

/-- A read of the stage that succeeds is one of the frame below, and delivers
what the frame has beyond its overhead, as far as it is wanted. -/
theorem framed_read_ok
    {handle : FileHandle}
    {offset length : Nat}
    {found : Bytes}
    {before after : Session η}
    (ran : ((lower.framed framer Session.drawNonce
      (Session.meter recorder)).read path handle offset length).execute before =
        (.ok found, after)) :
    ∃ started frame reached,
      started.storage = before.storage ∧ after.storage = reached.storage ∧
        (lower.read path handle (framer.storedOffset offset)
          (framer.storedLength length)).execute started =
            (.ok frame, reached) ∧
        found.length = min length (frame.length - framer.overhead) := by
  dsimp only [framed] at ran
  rcases Session.execute_timed_eq_ok ran with
    ⟨started, ended, same, read, last⟩
  rcases Action.execute_bind_eq_ok read with ⟨frame, reached, asked, rest⟩
  split at rest
  · rename_i empty
    rcases Action.execute_pure_eq_ok rest with ⟨rfl, rfl⟩
    refine ⟨started, frame, reached, same, last, asked, ?_⟩
    simp [List.isEmpty_iff.mp empty]
  · rcases Action.execute_bind_eq_ok rest with ⟨block, final, opened, rest⟩
    rcases Prod.mk.inj opened with ⟨decoded, rfl⟩
    rcases Action.execute_pure_eq_ok rest with ⟨rfl, rfl⟩
    have framed := framer.length_of_decode decoded
    refine ⟨started, frame, reached, same, last, asked, ?_⟩
    rw [List.length_take, framed, Framer.storedLength, Nat.add_sub_cancel]

/-- A write of the stage that succeeds is one of a whole frame below. -/
theorem framed_write_ok
    {handle : FileHandle}
    {offset count : Nat}
    {data : Bytes}
    {before after : Session η}
    (ran : ((lower.framed framer Session.drawNonce
      (Session.meter recorder)).write path handle offset data).execute before =
        (.ok count, after)) :
    count = data.length ∧
      ∃ started frame taken reached,
        started.storage = before.storage ∧ after.storage = reached.storage ∧
          frame.length = framer.storedLength data.length ∧
          (lower.write path handle (framer.storedOffset offset) frame).execute
            started = (.ok taken, reached) := by
  dsimp only [framed] at ran
  rcases Session.execute_timed_eq_ok ran with
    ⟨begun, ended, same, wrote, last⟩
  rcases Action.execute_bind_eq_ok wrote with ⟨frame, started, drawn, rest⟩
  rcases frameWith_ok framer drawn with ⟨unchanged, length⟩
  rcases Action.execute_bind_eq_ok rest with ⟨taken, reached, sent, rest⟩
  split at rest
  · cases rest
  · rcases Action.execute_pure_eq_ok rest with ⟨rfl, rfl⟩
    exact ⟨rfl, started, frame, taken, reached, unchanged.trans same, last,
      length, sent⟩

/-- The size of a file that holds the row of `held` bytes is `held`, if it is
found. -/
theorem MovesBlocks.sizeOf_ok
    (moves : MovesBlocks lower path framer.slots Handles (fun _ => True)
      (fun _ => True) (fun held session => Holds held session.storage)
      (fun held session => Sized held session.storage))
    {handle : Option FileHandle}
    {held found : Nat}
    {before after : Session η}
    (good : ∀ given ∈ handle, Handles given)
    (known : Holds (framer.rowLength held) before.storage)
    (ran : (Cipher.sizeOf framer lower path handle
      (framer.rowLength held)).execute before = (.ok found, after)) :
    found = held ∧ Holds (framer.rowLength held) after.storage := by
  refine @logicalSize_ok framer _ _
    (fun session => Holds (framer.rowLength held) session.storage) held found
    before after known ?_ ran
  intro reached frame last kept read partly
  have slots := Nat.div_add_mod' (framer.rowLength held) framer.stride
  have less := Nat.mod_lt (framer.rowLength held) framer.stride_pos
  rcases moves.withHandle_ok good kept read with
    ⟨opened, started, ended, fits, holds, looked, closes⟩
  rcases moves.read opened _ _ _ started frame ended fits holds looked with
    ⟨stays, delivered⟩
  have spans : framer.slots.Spans (framer.rowLength held)
      (framer.rowLength held / framer.stride * framer.stride)
      (framer.rowLength held % framer.stride) :=
    ⟨Nat.mul_mod_left _ _, partly, Nat.le_of_lt less, by omega⟩
  have length := delivered spans (by omega)
  exact ⟨by omega, closes stays⟩

/-- Over a layer that moves frames the cipher stage moves their blocks.  It has
a place for those whose frames have an address. -/
theorem framed_movesBlocks
    (moves : MovesBlocks lower path framer.slots Handles (fun _ => True)
      (fun _ => True) (fun held session => Holds held session.storage)
      (fun held session => Sized held session.storage)) :
    MovesBlocks
      (lower.framed framer Session.drawNonce (Session.meter recorder))
      path framer.size Handles framer.Addresses framer.Addresses
      (fun held session => framer.Placed held ∧
        Holds (framer.rowLength held) session.storage)
      (fun held session => framer.Placed held ∧
        Sized (framer.rowLength held) session.storage) := by
  constructor
  case earlier => exact fun _ _ addresses before => addresses.mono before
  case sized =>
    exact fun held session known => ⟨known.1, moves.sized _ session known.2⟩
  case openFile =>
    intro access held before opened after known ran
    rcases moves.openFile access _ before opened after known.2 ran with
      ⟨good, holds⟩
    exact ⟨good, known.1, holds⟩
  case release =>
    intro handle held before after good known ran
    exact ⟨known.1, moves.release handle _ before after good known.2 ran⟩
  case read =>
    rintro handle offset length held before found after good ⟨slots, known⟩ ran
    rcases framed_read_ok framer recorder ran with
      ⟨started, frame, reached, same, last, asked, long⟩
    rw [← same] at known
    rcases moves.read handle _ _ _ started frame reached good known asked with
      ⟨kept, delivered⟩
    refine ⟨⟨slots, last ▸ kept⟩, fun spans there => ?_⟩
    have placed := slots offset there spans.even
    have frames := Framer.length_frame_at spans placed there
    have stored := delivered (Framer.spans_slot spans placed)
      (Framer.storedOffset_lt spans placed there)
    unfold Framer.storedLength at frames stored
    omega
  case readUnplaced =>
    intro handle offset length before found after _ _ ran
    rcases framed_read_ok framer recorder ran with ⟨_, _, _, -, -, -, long⟩
    exact long ▸ Nat.min_le_left _ _
  case write =>
    intro handle offset data held before count after good known placed spans
      ran
    rcases framed_write_ok framer recorder ran with
      ⟨rfl, started, frame, taken, reached, same, last, length, sent⟩
    have ends := Framer.storedOffset_add spans placed
    have slot := Framer.spans_slot spans placed
    rw [← length] at ends slot
    rw [← same] at known
    rcases moves.write handle _ _ _ started taken reached good known.2 trivial
        slot sent with
      ⟨-, kept, held⟩
    rw [ends, ← framer.rowLength_mono.map_max] at kept held
    have slots := known.1.max spans placed
    refine ⟨rfl, ⟨slots, last ▸ kept⟩, fun whole there => ⟨slots, ?_⟩⟩
    rw [last]
    refine held (same ▸ whole.2) ?_
    rw [Framer.storedOffset_of_spans spans placed, ← framer.rowLength_mul,
      spans.index_mul]
    exact framer.rowLength_mono there
  case writeUnplaced =>
    intro handle offset data before count after _ _ ran
    exact (framed_write_ok framer recorder ran).1
  case truncate =>
    intro handle target held before after good known within ran
    dsimp only [framed] at ran
    rw [Framer.storedSize_of_addresses within] at ran
    exact ⟨within.placed,
      moves.truncate handle _ _ before after good known.2 trivial ran⟩
  case fileSize =>
    intro handle held before found after good known ran
    rcases Action.execute_bind_eq_ok ran with ⟨stored, reached, asked, ran⟩
    rcases moves.fileSize handle _ before stored reached good known.2 asked
      with ⟨rfl, holds⟩
    rcases moves.sizeOf_ok framer good holds ran with ⟨rfl, kept⟩
    exact ⟨rfl, known.1, kept⟩
  case evenSize =>
    intro handle held before found after good known even ran
    rcases Action.execute_bind_eq_ok ran with ⟨stored, reached, asked, ran⟩
    have full : framer.rowLength held % framer.stride = 0 := by
      rw [framer.rowLength_mod, even, if_neg (Nat.lt_irrefl 0)]
    rcases moves.evenSize handle _ before stored reached good known.2 full
      asked with ⟨rfl, sized⟩
    unfold Cipher.sizeOf at ran
    rw [Framer.logicalSize_known _ (.inr even)] at ran
    rcases Action.execute_pure_eq_ok ran with ⟨rfl, rfl⟩
    exact ⟨rfl, known.1, sized⟩

end Framed

end Layer

end Strata
