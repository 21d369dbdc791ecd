import Mathlib
import Strata.Proofs.AlignStage
import Strata.Proofs.NotedCalls
import Strata.Proofs.TransferCounts

/-!
# Writes that are refused

A write of a part of a block past the end of the file is refused.  Whether the
file ends before a block is asked for each block that is written in part, while
the file grows under the writing; but a block that was written completely
reaches the next one, also where the layer below moves less of other blocks
than it was given.  So only the first block can be refused, before a byte is
moved.

The main result says exactly which writes are refused over a layer that moves
prefixes and does not fail, and that nothing but the size is asked for then.
-/

namespace Strata

/-- A write of `length` bytes covers its first block in part, and starts that
block past the end of a file of `held` bytes, or starts inside of it where it
is the next one. -/
def BlockSize.Misses
    (size : BlockSize)
    (held offset length : Nat) :
    Prop :=
  (0 < size.inside offset ∨ length < size.bytes) ∧
    (held < size.start offset ∨
      held = size.start offset ∧ 0 < size.inside offset)

/-! ## Actions that succeed with some answer -/

namespace Action

variable {σ α β : Type}

/-- From `state` the action succeeds, and `after` holds of its answer and of
the state that it leaves. -/
def Succeeds
    (action : Action σ α)
    (state : σ)
    (after : α → σ → Prop) :
    Prop :=
  ∃ answer reached,
    action.execute state = (.ok answer, reached) ∧ after answer reached

namespace Succeeds

variable {state : σ}

theorem pure
    {value : α}
    {after : α → σ → Prop}
    (held : after value state) :
    (Pure.pure value : Action σ α).Succeeds state after :=
  ⟨value, state, rfl, held⟩

theorem bind
    {action : Action σ α}
    {next : α → Action σ β}
    {middle : α → σ → Prop}
    {after : β → σ → Prop}
    (first : action.Succeeds state middle)
    (second : ∀ value reached, middle value reached →
      (next value).Succeeds reached after) :
    (action >>= next).Succeeds state after := by
  rcases first with ⟨value, reached, ran, held⟩
  rcases second value reached held with ⟨answer, final, continued, holds⟩
  refine ⟨answer, final, ?_, holds⟩
  rw [execute_bind, ran]
  exact continued

/-- What is known of every success is known of this one. -/
theorem also
    {action : Action σ α}
    {after known : α → σ → Prop}
    (succeeds : action.Succeeds state after)
    (knows : ∀ answer reached,
      action.execute state = (.ok answer, reached) → known answer reached) :
    action.Succeeds state fun answer reached =>
      after answer reached ∧ known answer reached := by
  rcases succeeds with ⟨answer, reached, ran, held⟩
  exact ⟨answer, reached, ran, held, knows answer reached ran⟩

end Succeeds

end Action

namespace Layer

/-- From the states that are `Ready` on, no request about the bytes of a file
fails. -/
structure NeverFails
    {σ : Type}
    (layer : Layer σ)
    (path : Path)
    (Ready : σ → Prop) :
    Prop where
  fileSize : ∀ handle before, Ready before →
    (layer.fileSize path handle).Succeeds before fun _ => Ready
  read : ∀ handle offset length before, Ready before →
    (layer.read path handle offset length).Succeeds before fun _ => Ready
  write : ∀ handle offset data before, Ready before →
    (layer.write path handle offset data).Succeeds before fun _ => Ready

open Align

variable
  {σ : Type}
  {lower : Layer σ}
  {path : Path}
  {contents : σ → Bytes}
  {Ready : σ → Prop}
  {size : BlockSize}
  {before : σ}

section Writes

variable
  (unfailing : NeverFails lower path Ready)
  (handle : FileHandle)

include unfailing

theorem rewriteBlock_succeeds
    (block inside stored : Nat)
    (data : Bytes)
    (ready : Ready before) :
    (rewriteBlock size lower path handle block inside stored data).Succeeds
      before fun _ => Ready := by
  refine (unfailing.read handle block _ before ready).bind
    fun present read still => ?_
  refine (unfailing.write handle block _ read still).bind
    fun taken after last => ?_
  split <;> exact .pure last

variable (moves : MovesPrefixes lower path contents)

include moves

/-- A piece is written, if not always as a whole, when it covers its block or
the file reaches it. -/
theorem writePiece_succeeds
    {offset : Nat}
    {data : Bytes}
    (ready : Ready before)
    (reaches : size.inside offset = 0 ∧ data.length = size.bytes ∨
      size.start offset < (contents before).length ∨
      size.start offset = (contents before).length ∧ size.inside offset = 0) :
    (writePiece size lower path handle offset data).Succeeds before
      fun _ => Ready := by
  unfold writePiece
  dsimp only
  split
  · exact unfailing.write _ _ _ _ ready
  · rename_i partly
    refine ((unfailing.fileSize (some handle) before ready).also
      fun stored sized asked => (moves.fileSize _ _ _ _ asked).2).bind ?_
    rintro stored sized ⟨still, rfl⟩
    split
    · split
      · omega
      · exact unfailing.write _ _ _ _ still
    · split
      · exact unfailing.write _ _ _ _ still
      · exact rewriteBlock_succeeds unfailing handle _ _ _ _ still

/-- A write succeeds unless it misses the end of the file: a block that was
written completely reaches the next one. -/
theorem writeFrom_succeeds
    (offset : Nat)
    (data : Bytes)
    (done : Nat)
    (ready : Ready before)
    (reaches : ¬size.Misses (contents before).length offset data.length) :
    (writeFrom size lower path handle offset data done).Succeeds before
      fun _ => Ready := by
  induction offset, data, done using writeFrom.induct size
    generalizing before with
  | case1 offset done =>
      rw [writeFrom, dif_pos rfl]
      exact .pure ready
  | case2 offset data done nonempty piece =>
      rename_i ih
      have room : size.room offset = size.bytes - size.inside offset := rfl
      have inside := size.inside_lt offset
      have first : data.take (size.room offset) = piece := rfl
      have pieceLength : piece.length = min (size.room offset) data.length :=
        List.length_take
      have some := List.length_pos_iff.mpr nonempty
      have pieceNonempty : piece ≠ [] :=
        List.ne_nil_of_length_pos (by omega)
      clear_value piece
      rw [writeFrom, dif_neg nonempty, first]
      unfold BlockSize.Misses at reaches
      refine ((writePiece_succeeds unfailing handle moves ready (by omega)).also
        fun written middle wrote =>
          writePiece_written moves.tells_true pieceNonempty wrote).bind ?_
      rintro written middle ⟨still, bound, there, -⟩
      split
      · exact .pure still
      · refine ih 0 still ?_
        rintro ⟨-, past⟩
        -- The piece is stored, so the file reaches as far as the piece.
        have reached := congrArg List.length there
        rw [Bytes.length_slice, List.length_take] at reached
        have position := size.start_add_inside (offset + piece.length)
        omega

end Writes

end Layer

/-! ## Files in memory that do not fail -/

namespace Memory

/-- A file is there, and no transfer is going to fail. -/
structure Ready
    (path : Path)
    (memory : Memory) :
    Prop where
  file : (memory.contents? path).isSome
  reads : ∀ number, .failing number ∉ memory.readLimits
  writes : ∀ number, .failing number ∉ memory.writeLimits

theorem allowed_succeeds
    {limits : List Limit}
    (unfailing : ∀ number, .failing number ∉ limits)
    (count : Nat) :
    ∃ moved, allowed count (limits.headD .unlimited) = .ok moved := by
  cases limits with
  | nil => exact ⟨_, rfl⟩
  | cons limit rest =>
      cases limit with
      | unlimited => exact ⟨_, rfl⟩
      | atMost most => exact ⟨_, rfl⟩
      | failing number => exact absurd List.mem_cons_self (unfailing number)

theorem onFile_succeeds
    {α : Type}
    {path : Path}
    {call : MemoryCall}
    {answer : Memory → Contents → Except Error α × Memory}
    {memory : Memory}
    (ready : Ready path memory)
    (answers : ∀ contents, Ready path (memory.note call) →
      ∃ value after,
        answer (memory.note call) contents = (.ok value, after) ∧
          Ready path after) :
    (onFile call path answer).Succeeds memory fun _ => Ready path := by
  rcases Option.isSome_iff_exists.mp ready.file with ⟨contents, found⟩
  rcases answers contents ⟨ready.file, ready.reads, ready.writes⟩ with
    ⟨value, after, answered, still⟩
  have noted : (memory.note call).contents? path = some contents := found
  refine ⟨value, after, ?_, still⟩
  simp only [onFile, Action.execute_ofRun, noted, answered]

/-- A file in memory never fails unless a limit says so. -/
theorem layer_neverFails
    (path : Path) :
    Layer.NeverFails layer path (Ready path) := by
  constructor
  all_goals dsimp only [layer, Memory.read, Memory.write]
  case fileSize =>
    intro handle before ready
    exact onFile_succeeds ready fun contents noted =>
      ⟨contents.size, _, rfl, noted⟩
  case read =>
    intro handle offset length before ready
    refine onFile_succeeds ready fun contents noted => ?_
    rcases allowed_succeeds noted.reads
        (contents.read offset length).length with ⟨moved, allows⟩
    rw [allows]
    exact ⟨_, _, rfl, noted.file, fun number later =>
      noted.reads number (List.mem_of_mem_tail later), noted.writes⟩
  case write =>
    intro handle offset data before ready
    refine onFile_succeeds ready fun contents noted => ?_
    rcases allowed_succeeds noted.writes data.length with ⟨moved, allows⟩
    rw [allows]
    refine ⟨moved, _, rfl, ?_, noted.reads, fun number later =>
      noted.writes number (List.mem_of_mem_tail later)⟩
    rw [contents?_change, Option.isSome_map]
    exact noted.file

end Memory

namespace Layer

open Align

variable
  {σ : Type}
  {lower : Layer σ}
  {path : Path}
  {contents : σ → Bytes}
  {Ready : σ → Prop}
  {before : σ}

/-! ## The writes that are refused -/

/-- Over a watched layer a write that misses the file makes one call, which
asks for the size. -/
theorem aligned_write_misses
    (moves : MovesPrefixes lower path contents)
    (unfailing : NeverFails lower path Ready)
    (ready : Ready before)
    {size : BlockSize}
    (handle : FileHandle)
    {offset : Nat}
    {data : Bytes}
    (nonempty : data ≠ [])
    (misses : size.Misses (contents before).length offset data.length) :
    ∃ after,
      contents after = contents before ∧
        ((lower.aligned size).write path handle offset data).execute before =
          (.error (.alignment path.render (size.start offset)
            (size.inside offset) (contents before).length), after) ∧
        ((lower.watched.aligned size).write path handle offset data).execute
            ⟨before, []⟩ =
          (.error (.alignment path.render (size.start offset)
              (size.inside offset) (contents before).length),
            ⟨after, [(before, .fileSize true)]⟩) := by
  rcases unfailing.fileSize (some handle) before ready with
    ⟨held, after, sized, -⟩
  rcases moves.fileSize _ _ _ _ sized with ⟨same, rfl⟩
  have noted : (lower.watched.fileSize path (some handle)).execute
      ⟨before, []⟩ =
        (.ok (contents before).length,
          ⟨after, [(before, .fileSize true)]⟩) := by
    simp [watched, Noted.noting, sized]
  exact ⟨after, same,
    writeFrom_misses 0 sized nonempty misses.1 misses.2,
    writeFrom_misses 0 noted nonempty misses.1 misses.2⟩

/--
Over a layer that moves prefixes and does not fail, a write is refused for its
alignment just when it covers its first block in part and misses the end of the
file.  The error names the start of the block, the bytes before the write in
the block and the length of the file, and nothing but the size was asked for.
Every other write succeeds, so none is refused after a byte was moved.
-/
theorem aligned_write_refused_iff
    (moves : MovesPrefixes lower path contents)
    (unfailing : NeverFails lower path Ready)
    (ready : Ready before)
    (size : BlockSize)
    (handle : FileHandle)
    (offset : Nat)
    {data : Bytes}
    (nonempty : data ≠ []) :
    ((∃ text block extra found,
        (((lower.aligned size).write path handle offset data).execute
          before).1 = .error (.alignment text block extra found)) ↔
      size.Misses (contents before).length offset data.length) ∧
      (size.Misses (contents before).length offset data.length →
        ∃ after,
          contents after = contents before ∧
            ((lower.aligned size).write path handle offset data).execute
                before =
              (.error (.alignment path.render (size.start offset)
                (size.inside offset) (contents before).length), after) ∧
            ((lower.watched.aligned size).write path handle offset
                data).execute ⟨before, []⟩ =
              (.error (.alignment path.render (size.start offset)
                  (size.inside offset) (contents before).length),
                ⟨after, [(before, .fileSize true)]⟩)) ∧
      (¬size.Misses (contents before).length offset data.length →
        ∃ count after,
          ((lower.aligned size).write path handle offset data).execute before =
            (.ok count, after)) := by
  have taken : ¬size.Misses (contents before).length offset data.length →
      ∃ count after,
        ((lower.aligned size).write path handle offset data).execute before =
          (.ok count, after) := by
    intro reaches
    rcases writeFrom_succeeds unfailing handle moves offset data 0 ready
      reaches with ⟨count, after, wrote, -⟩
    exact ⟨count, after, wrote⟩
  refine ⟨⟨?_, fun misses => ?_⟩,
    aligned_write_misses moves unfailing ready handle nonempty, taken⟩
  · rintro ⟨text, block, extra, found, error⟩
    by_contra reaches
    rcases taken reaches with ⟨count, after, wrote⟩
    rw [wrote] at error
    cases error
  · rcases aligned_write_misses moves unfailing ready handle nonempty misses
      with ⟨after, -, answered, -⟩
    exact ⟨_, _, _, _, congrArg Prod.fst answered⟩

/-- Two bytes are refused past the end of the file, and taken, if not both,
at its end. -/
theorem aligned_write_refused_iff_of_limits :
    (∃ after,
      ((Memory.layer.aligned ⟨4, by decide⟩).write .root ⟨[]⟩ 9
          [1, 2]).execute
          { files := [(.root, .ofBytes [1, 2, 3, 4, 5])]
            writeLimits := [.atMost 1] } =
        (.error (.alignment Path.root.render 8 1 5), after) ∧
        Memory.bytesAt .root after = [1, 2, 3, 4, 5]) ∧
      ∃ count after,
        ((Memory.layer.aligned ⟨4, by decide⟩).write .root ⟨[]⟩ 5
            [1, 2]).execute
            { files := [(.root, .ofBytes [1, 2, 3, 4, 5])]
              writeLimits := [.atMost 1] } =
          (.ok count, after) := by
  have ready : Memory.Ready .root
      { files := [(.root, .ofBytes [1, 2, 3, 4, 5])]
        writeLimits := [.atMost 1] } :=
    ⟨by decide, by simp, by simp⟩
  have some : ([1, 2] : Bytes) ≠ [] := by decide
  have refused offset := aligned_write_refused_iff
    (Memory.layer_movesPrefixes .root) (Memory.layer_neverFails .root) ready
    ⟨4, by decide⟩ ⟨[]⟩ offset some
  constructor
  · have misses : BlockSize.Misses ⟨4, by decide⟩
        (Memory.bytesAt .root
          { files := [(.root, .ofBytes [1, 2, 3, 4, 5])]
            writeLimits := [.atMost 1] }).length 9 2 :=
      ⟨.inl (by decide), .inl (by decide)⟩
    rcases (refused 9).2.1 misses with ⟨after, same, answered, -⟩
    exact ⟨after, answered, same⟩
  · refine (refused 5).2.2 ?_
    rintro ⟨-, before | atEnd⟩
    · exact absurd before (by decide)
    · exact absurd atEnd.1 (by decide)

end Layer

end Strata
