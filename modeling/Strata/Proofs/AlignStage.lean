import Strata.Layer.Align
import Strata.Proofs.FlatFile

/-!
# The aligning stage over a file of blocks

Reads and writes of any range go block by block to the layer below.  As long
as that layer acts like a byte string on whole blocks, and a write starts no
block past the end, the stage acts like the byte string on every range that
stays within the lengths a file can have.  Each
loop is followed piece by piece: reading two neighbouring pieces is reading
one, and writing two of them is writing one.
-/

namespace Strata.Layer

open Align

variable
  {σ : Type}
  {lower : Layer σ}
  {path : Path}
  {size : BlockSize}
  {shape : Attributes}
  {Fits : Nat → Prop}
  {Holds Torn : Bytes → σ → Prop}
  {bytes data : Bytes}
  {state : σ}

/-- What lies within a file that is there fits. -/
theorem BlockFile.fits_within
    (file : BlockFile lower path size shape Fits Holds Torn)
    (held : Holds bytes state)
    {length : Nat}
    (within : length ≤ bytes.length) :
    Fits length :=
  file.shorter _ _ (file.fits _ _ held) within

/-! ## Reading -/

theorem requestLength_answers
    (file : BlockFile lower path size shape Fits Holds Torn)
    (handle : FileHandle)
    {offset length : Nat}
    (held : Holds bytes state)
    (fits : size.inside offset + length ≤ size.bytes) :
    ∃ request,
      min size.bytes (bytes.length - size.start offset) ≤ request ∧
        request ≤ size.bytes ∧
        size.inside offset + length ≤ request ∧
        (requestLength size lower path handle offset length).Answers state
          request (Holds bytes) := by
  unfold requestLength
  dsimp only
  split
  · rename_i whole
    exact ⟨size.bytes, by omega, Nat.le_refl _, fits, .pure held⟩
  · refine ⟨max (size.inside offset + length)
      (min (bytes.length - size.start offset) size.bytes),
      by omega, by omega, by omega, ?_⟩
    exact (file.fileSize _ _ _ held).bind fun reached found => .pure found

theorem readPiece_answers
    (file : BlockFile lower path size shape Fits Holds Torn)
    (handle : FileHandle)
    {offset length : Nat}
    (held : Holds bytes state)
    (fits : size.inside offset + length ≤ size.bytes)
    (within : Fits (size.start offset)) :
    (readPiece size lower path handle offset length).Answers state
      (bytes.slice offset length) (Holds bytes) := by
  unfold readPiece
  rcases requestLength_answers file handle held fits with
    ⟨request, covers, short, needed, answers⟩
  have position := size.start_add_inside offset
  have piece :
      (bytes.slice (size.start offset) request).slice (size.inside offset)
          length =
        bytes.slice offset length := by
    rw [Bytes.slice_slice, position, Nat.min_eq_left (by omega)]
  refine answers.bind fun reached found => ?_
  rw [size.start_eq] at covers piece within ⊢
  refine (file.read _ _ _ _ _ found within covers short).bind fun final kept => ?_
  rw [piece]
  exact .pure kept

/-- Reading any range answers the bytes that exist in it.  Only the block that
the range starts in may lie past the end. -/
theorem readFrom_answers
    (file : BlockFile lower path size shape Fits Holds Torn)
    (handle : FileHandle)
    (offset wanted : Nat)
    (done : List Bytes)
    (held : Holds bytes state)
    (within : wanted = 0 ∨ Fits (size.start offset)) :
    (readFrom size lower path handle offset wanted done).Answers state
      (done.reverse.flatten ++ bytes.slice offset wanted)
      (Holds bytes) := by
  induction offset, wanted, done using readFrom.induct size
    generalizing state with
  | case1 offset done =>
      rw [readFrom, if_pos rfl, Bytes.slice, List.take_zero, List.append_nil]
      exact .pure held
  | case2 offset wanted done some length =>
      rename_i ih
      have room : size.room offset = size.bytes - size.inside offset := rfl
      have inside := size.inside_lt offset
      have piece : min (size.room offset) wanted = length := rfl
      clear_value length
      rw [readFrom, if_neg some, piece]
      refine (readPiece_answers file handle held (by omega)
        (within.resolve_left some)).bind fun reached found => ?_
      split
      · rename_i short
        rw [Bytes.length_slice] at short
        have all : bytes.slice offset length = bytes.slice offset wanted :=
          Bytes.slice_eq_slice _ (.inr ⟨by omega, by omega⟩)
        rw [List.reverse_cons, List.flatten_append, List.flatten_singleton,
          all]
        exact .pure found
      · rename_i complete
        rw [Bytes.length_slice] at complete
        have room := size.room_pos offset
        have next := size.start_add_inside (offset + length)
        have rest := ih (bytes.slice offset length) found
          (.inr (file.fits_within found (by omega)))
        rw [List.reverse_cons, List.flatten_append, List.flatten_singleton,
          List.append_assoc, Bytes.slice_append,
          Nat.add_sub_cancel' (by omega)] at rest
        exact rest

/-- A full block is read with one request, and what the layer below answers is
passed on. -/
theorem readFrom_full_block
    (handle : FileHandle)
    (index : Nat) :
    ((readFrom size lower path handle (index * size.bytes) size.bytes
        []).execute state).1 =
      (((lower.read path handle (index * size.bytes)
        size.bytes).execute state).1).map (·.take size.bytes) := by
  have positive := size.positive
  have inside : size.inside (index * size.bytes) = 0 := Nat.mul_mod_left _ _
  have start : size.start (index * size.bytes) = index * size.bytes := by
    rw [size.start_eq, Nat.mul_div_cancel _ positive]
  have room : size.room (index * size.bytes) = size.bytes := by
    rw [BlockSize.room, Nat.mul_mod_left, Nat.sub_zero]
  rw [readFrom, if_neg (Nat.ne_of_gt positive), room, Nat.min_self]
  unfold readPiece requestLength
  dsimp only
  rw [inside, start, Nat.zero_add, if_pos rfl, pure_bind,
    Action.execute_bind, Action.execute_bind]
  generalize (lower.read path handle (index * size.bytes)
    size.bytes).execute state = read
  rcases read with ⟨answer, reached⟩
  cases answer with
  | error error => rfl
  | ok block =>
      simp only [Action.execute_pure]
      rw [readFrom, if_pos (Nat.sub_self _)]
      split <;> simp [Bytes.slice, Except.map]

/-! ## Writing -/

theorem rewriteBlock_answers
    (file : BlockFile lower path size shape Fits Holds Torn)
    (handle : FileHandle)
    (index : Nat)
    {inside : Nat}
    (held : Holds bytes state)
    (starts : index * size.bytes ≤ bytes.length)
    (nonempty : data ≠ [])
    (fits : inside + data.length ≤ size.bytes)
    (within : Fits (index * size.bytes + inside + data.length)) :
    (rewriteBlock size lower path handle (index * size.bytes) inside
      (bytes.length - index * size.bytes) data).Answers state
        data.length
        (Holds (bytes.splice (index * size.bytes + inside) data)) := by
  unfold rewriteBlock
  refine (file.read _ _ _ _ _ held (file.fits_within held starts) (by omega)
    (by omega)).bind fun reached found => ?_
  generalize request :
    min (bytes.length - index * size.bytes) size.bytes = length
  have merged :
      bytes.splice (index * size.bytes)
          ((bytes.slice (index * size.bytes) length).splice inside data) =
        bytes.splice (index * size.bytes + inside) data :=
    Bytes.splice_splice_slice bytes starts (by omega)
  have changedLength :
      ((bytes.slice (index * size.bytes) length).splice inside data).length =
        max (min length (bytes.length - index * size.bytes))
          (inside + data.length) := by
    rw [Bytes.length_splice, if_neg nonempty, Bytes.length_slice]
  have changed :
      (bytes.slice (index * size.bytes) length).splice inside data ≠ [] := by
    simp [Bytes.splice_eq_nil_iff, nonempty]
  have whole : Fits (index * size.bytes +
      ((bytes.slice (index * size.bytes) length).splice inside data).length) := by
    rw [changedLength]
    rcases Nat.le_total bytes.length
      (index * size.bytes + inside + data.length) with longer | shorter
    · exact file.shorter _ _ within (by omega)
    · exact file.fits_within held (by omega)
  rw [← merged]
  generalize (bytes.slice (index * size.bytes) length).splice inside data =
    block at *
  refine (file.write _ _ _ _ _ found whole starts changed (by omega)
    (by omega)).bind fun final written => ?_
  rw [if_neg (Nat.lt_irrefl _)]
  exact .pure written

/-- Writing a piece of a block that is reached writes the piece. -/
theorem writePiece_answers
    (file : BlockFile lower path size shape Fits Holds Torn)
    (handle : FileHandle)
    {offset : Nat}
    (held : Holds bytes state)
    (nonempty : data ≠ [])
    (fits : size.inside offset + data.length ≤ size.bytes)
    (within : Fits (offset + data.length))
    (reaches : offset ≤ bytes.length ∨ size.start offset < bytes.length) :
    (writePiece size lower path handle offset data).Answers state
      data.length (Holds (bytes.splice offset data)) := by
  have position := size.start_add_inside offset
  unfold writePiece
  dsimp only
  rw [size.start_eq] at position reaches ⊢
  generalize offset / size.bytes = index at *
  generalize size.inside offset = inside at *
  subst position
  split
  · rename_i covered
    rcases covered with ⟨rfl, full⟩
    exact file.write _ _ _ _ _ held within (by omega) nonempty (by omega)
      (by omega)
  · refine (file.fileSize _ _ _ held).bind fun reached found => ?_
    split
    · split
      · omega
      · obtain rfl : inside = 0 := by omega
        exact file.write _ _ _ _ _ found within (by omega) nonempty
          (by omega) (by omega)
    · split
      · rename_i last
        rcases last with ⟨rfl, longer⟩
        exact file.write _ _ _ _ _ found within (by omega) nonempty
          (by omega) (by omega)
      · exact rewriteBlock_answers file handle index found (by omega) nonempty
          fits within

/-- Writing any bytes whose first block is reached writes all of them. -/
theorem writeFrom_answers
    (file : BlockFile lower path size shape Fits Holds Torn)
    (handle : FileHandle)
    (offset : Nat)
    (data : Bytes)
    (done : Nat)
    (held : Holds bytes state)
    (within : data = [] ∨ Fits (offset + data.length))
    (reaches : data = [] ∨
      offset ≤ bytes.length ∨ size.start offset < bytes.length) :
    (writeFrom size lower path handle offset data done).Answers state
      (done + data.length) (Holds (bytes.splice offset data)) := by
  induction offset, data, done using writeFrom.induct size
    generalizing bytes state with
  | case1 offset done =>
      rw [writeFrom, dif_pos rfl]
      exact .pure held
  | case2 offset data done nonempty piece =>
      rename_i ih
      have room : size.room offset = size.bytes - size.inside offset := rfl
      have positive := size.room_pos offset
      have inside := size.inside_lt offset
      have some := List.length_pos_iff.mpr nonempty
      have first : data.take (size.room offset) = piece := rfl
      have pieceLength : piece.length = min (size.room offset) data.length :=
        List.length_take
      have pieceNonempty : piece ≠ [] :=
        List.ne_nil_of_length_pos (by omega)
      have parts : piece ++ data.drop piece.length = data :=
        List.prefix_iff_eq_append.mp (List.take_prefix _ _)
      clear_value piece
      rw [writeFrom, dif_neg nonempty, first]
      have last := within.resolve_left nonempty
      refine (writePiece_answers file handle held pieceNonempty (by omega)
        (file.shorter _ _ last (by omega))
        (reaches.resolve_left nonempty)).bind fun reached found => ?_
      rw [if_neg (Nat.lt_irrefl _)]
      have reached :
          offset + piece.length ≤ (bytes.splice offset piece).length := by
        rw [Bytes.length_splice, if_neg pieceNonempty]
        exact Nat.le_max_right _ _
      have beyond : offset + piece.length + (data.drop piece.length).length =
          offset + data.length := by
        rw [List.length_drop]
        omega
      have rest := ih 0 found (.inr (by rwa [beyond])) (.inr (.inl reached))
      rw [Bytes.splice_splice, parts, Nat.add_assoc, ← List.length_append,
        parts] at rest
      exact rest

/-- A write of a part of a block that the file does not reach is refused, and
nothing but the size of the file is asked for. -/
theorem writeFrom_misses
    {handle : FileHandle}
    {offset held : Nat}
    (done : Nat)
    {reached : σ}
    (sized : (lower.fileSize path (some handle)).execute state =
      (.ok held, reached))
    (nonempty : data ≠ [])
    (partly : 0 < size.inside offset ∨ data.length < size.bytes)
    (past : held < size.start offset ∨
      held = size.start offset ∧ 0 < size.inside offset) :
    (writeFrom size lower path handle offset data done).execute state =
      (.error (.alignment path.render (size.start offset) (size.inside offset)
        held), reached) := by
  have uncovered : ¬(size.inside offset = 0 ∧
      (data.take (size.room offset)).length = size.bytes) := by
    rintro ⟨inside, whole⟩
    rw [List.length_take] at whole
    omega
  rw [writeFrom, dif_neg nonempty]
  unfold writePiece
  dsimp only
  rw [if_neg uncovered, Action.execute_bind, Action.execute_bind, sized]
  dsimp only
  rw [if_pos (by omega), if_pos (by omega)]
  rfl

/-- A write that neither reaches what is stored nor starts with a full block
is refused, and nothing is changed. -/
theorem writeFrom_refused
    (file : BlockFile lower path size shape Fits Holds Torn)
    (handle : FileHandle)
    {offset : Nat}
    (done : Nat)
    (held : Holds bytes state)
    (nonempty : data ≠ [])
    (past : bytes.length < offset)
    (apart : bytes.length ≤ size.start offset)
    (partly : size.inside offset = 0 → data.length < size.bytes) :
    ∃ error reached,
      (writeFrom size lower path handle offset data done).execute state =
          (.error error, reached) ∧
        Holds bytes reached := by
  have position := size.start_add_inside offset
  rcases file.fileSize (some handle) _ _ held with ⟨reached, sized, found⟩
  exact ⟨_, reached, writeFrom_misses done sized nonempty (by omega)
    (by omega), found⟩

/-! ## Changing the length -/

theorem fillTo_answers
    (file : BlockFile lower path size shape Fits Holds Torn)
    (handle : FileHandle)
    (target offset : Nat)
    (held : Holds bytes state)
    (within : Fits target)
    (atEnd : bytes.length = offset)
    (grows : offset ≤ target) :
    (fillTo size lower path handle target offset).Answers state ()
      (Holds (bytes.resize target)) := by
  induction offset using fillTo.induct target
    generalizing bytes state with
  | case1 offset before length =>
      rename_i ih
      have chunk : min (target - offset) fillChunk = length := rfl
      clear_value length
      subst atEnd
      rw [fillTo, if_pos before, chunk]
      have written := writeFrom_answers file handle bytes.length
        (Bytes.zeros length) 0 held
        (.inr (file.shorter _ _ within (by rw [Bytes.length_zeros]; omega)))
        (.inr (.inl (Nat.le_refl _)))
      rw [Nat.zero_add, Bytes.length_zeros, Bytes.splice_zeros_at_end]
        at written
      refine written.bind fun reached found => ?_
      rw [if_neg (Nat.lt_irrefl _)]
      have rest := ih 0 found (Bytes.length_resize _ _) (by omega)
      rwa [Bytes.resize_resize _ (.inl (Nat.le_add_right _ _))] at rest
  | case2 offset reached =>
      rw [fillTo, if_neg reached]
      obtain rfl : target = bytes.length := by omega
      rw [Bytes.resize_self]
      exact .pure held

theorem keptPart_answers
    (file : BlockFile lower path size shape Fits Holds Torn)
    (handle : FileHandle)
    {target : Nat}
    (held : Holds bytes state)
    (shorter : target ≤ bytes.length) :
    (keptPart size lower path handle target).Answers state
      (bytes.slice (size.start target) (size.inside target))
      (Holds bytes) := by
  have position := size.start_add_inside target
  have first := size.start_add_inside (size.start target)
  unfold keptPart
  dsimp only
  refine (readFrom_answers file handle _ _ [] held
    (.inr (file.fits_within held (by omega)))).bind fun reached found => ?_
  rw [List.reverse_nil, List.flatten_nil, List.nil_append, if_neg]
  · exact .pure found
  · rw [Bytes.length_slice]
    omega

/-- A cut inside a block is made whole again by writing the kept part. -/
theorem truncateOpen_answers
    (file : BlockFile lower path size shape Fits Holds Torn)
    (handle : FileHandle)
    (target : Nat)
    (held : Holds bytes state)
    (within : Fits target) :
    (truncateOpen size lower path handle target).Answers state ()
      (Holds (bytes.resize target)) := by
  unfold truncateOpen
  refine (file.fileSize _ _ _ held).bind fun reached found => ?_
  dsimp only
  split
  case isTrue longer =>
    refine (fillTo_answers file handle target _ found within rfl
      (Nat.le_of_lt longer)).bind fun filled holds => ?_
    have kept := file.keep (some handle) _ _ holds
    rw [Bytes.length_resize] at kept
    exact kept.bind fun final holds => .pure holds
  case isFalse shorter =>
    split
    case isTrue cut =>
      rcases cut with ⟨less, inside⟩
      have position := size.start_add_inside target
      have room := size.inside_lt target
      have part : (bytes.resize target).slice (size.start target) size.bytes =
          bytes.slice (size.start target) (size.inside target) := by
        rw [Bytes.slice_resize_end _ (Nat.le_of_lt less) (by omega)]
        congr 1
        omega
      have partLength :
          (bytes.slice (size.start target) (size.inside target)).length =
            target - size.start target := by
        rw [Bytes.length_slice]
        omega
      refine (keptPart_answers file handle found (Nat.le_of_lt less)).bind
        fun read kept => ?_
      refine (file.tear (some handle) target _ _ kept
        (Nat.le_of_lt less)).bind fun torn broken => ?_
      have mended := file.mend handle (target / size.bytes) _ _ broken
      rw [Nat.succ_mul, ← size.start_eq, part, Bytes.length_resize] at mended
      have nonempty :
          bytes.slice (size.start target) (size.inside target) ≠ [] :=
        List.ne_nil_of_length_pos (by omega)
      rw [if_pos (by simpa using nonempty)]
      refine (mended (by omega) (by omega)).bind fun final holds => ?_
      rw [if_neg (by omega)]
      exact .pure holds
    case isFalse uncut =>
      rcases Nat.lt_or_ge target bytes.length with less | least
      · have even : target % size.bytes = 0 := by
          have : size.inside target = target % size.bytes := rfl
          omega
        refine (file.tear (some handle) target _ _ found
          (Nat.le_of_lt less)).bind fun torn broken => .pure ?_
        exact file.even _ _ broken (by rwa [Bytes.length_resize])
      · obtain rfl : target = bytes.length := by omega
        rw [Bytes.resize_self]
        exact (file.keep (some handle) _ _ found).bind
          fun final holds => .pure holds

/-! ## All requests -/

/--
The aligning stage over a file of blocks acts like a byte string, as long as a
request stays within the lengths that a file can have and a write starts no
block past the end.
-/
theorem aligned_perform
    (file : BlockFile lower path size shape Fits Holds Torn)
    (request : FileRequest)
    (held : Holds bytes state)
    (within : request.Within size Fits)
    (reaches : request.Reaches size bytes) :
    ((lower.aligned size).perform path request).Answers state
      (request.onBytes shape bytes).1
      (Holds (request.onBytes shape bytes).2) := by
  cases request with
  | read handle offset length =>
      exact (readFrom_answers file handle offset length [] held within).bind
        fun reached holds => .pure holds
  | write handle offset data =>
      have written := writeFrom_answers file handle offset data 0 held within
        reaches
      rw [Nat.zero_add] at written
      exact written.bind fun reached holds => .pure holds
  | truncate handle target =>
      have truncated :=
        withHandle_answers handle held (file.openFile .readWrite bytes)
          (fun opened reached before =>
            truncateOpen_answers file opened target before within)
          (fun opened => file.release opened (bytes.resize target))
      exact truncated.bind fun reached holds => .pure holds
  | fileSize handle =>
      exact (file.fileSize handle bytes state held).bind
        fun reached holds => .pure holds
  | attributes handle =>
      exact (file.attributes handle bytes state held).bind
        fun reached holds => .pure holds

end Strata.Layer
