import Strata.Proofs.BlockTransfers
import Strata.Proofs.NotedCalls

/-!
# Requests that keep to blocks

Every read and write that the aligning stage makes starts on a block boundary,
stays inside the block, and takes in all that is stored of it.  This holds
call by call, over any layer that moves blocks.  Each call is followed with
what is then known of the file below: that its blocks are all there; after a
cut, or a write that leaves a hole, only how long it is; and nothing, once a
block was written that the layer has no place for.  From there on only such
blocks are asked for, and of them nothing can be stored.
-/

namespace Strata

/-- The handle that a request was given. -/
def FileRequest.handle? :
    FileRequest → Option FileHandle
  | .read handle _ _ => some handle
  | .write handle _ _ => some handle
  | .truncate handle _ => handle
  | .fileSize handle => handle
  | .attributes handle => handle

/-- A noted read or write is about one block and takes in all that the file
then held of it.  Of a block that the layer has no place for it holds
nothing. -/
def Noted.KeepsToBlock
    {σ : Type}
    (size : BlockSize)
    (Places : Nat → Prop)
    (Sized : Nat → σ → Prop) :
    σ × MemoryCall → Prop
  | (state, .read offset length) | (state, .write offset length) =>
    ∃ held, (Sized held state ∨ held = 0 ∧ ¬Places offset) ∧
      size.Spans held offset length
  | _ => True

/-- What is known of a file: how long it is, and maybe that its blocks are all
there, or nothing. -/
inductive Known where
  | whole (held : Nat)
  | sized (held : Nat)
  | lost

namespace Known

/-- What is known of a file is so in a state. -/
def In
    {σ : Type}
    (Holds Sized : Nat → σ → Prop) :
    Known → σ → Prop
  | whole held => Holds held
  | sized held => Sized held
  | lost => fun _ => True

/-- The blocks of a file are there, and a write at an offset starts none past
the end, unless it starts one that has no place. -/
def Reaches
    (size : BlockSize)
    (Places : Nat → Prop)
    (offset : Nat) :
    Known → Prop
  | whole held => offset ≤ held
  | sized _ => False
  | lost => ¬Places (size.start offset)

/-- A write may go on at an offset: behind a hole it does so at the end of the
last block, and when nothing is known, with blocks that have no place. -/
def Continues
    (size : BlockSize)
    (Places : Nat → Prop)
    (offset : Nat)
    (data : Bytes) :
    Known → Prop
  | whole _ => True
  | sized held => data = [] ∨ held = offset ∧ size.inside offset = 0
  | lost => ¬Places (size.start offset)

variable
  {size : BlockSize}
  {Places : Nat → Prop}
  {offset : Nat}
  {data : Bytes}
  {known : Known}

theorem continues_whole
    (held : Nat) :
    (whole held).Continues size Places offset data :=
  trivial

theorem Reaches.continues
    (reaches : known.Reaches size Places offset) :
    known.Continues size Places offset data := by
  cases known with
  | whole held => trivial
  | sized held => exact reaches.elim
  | lost => exact reaches

end Known

namespace Layer

open Noted (KeepsToBlock)

variable {σ α β : Type}

/-! ## Orderly actions -/

/-- From a state that is known of the action makes only calls that keep to
blocks. -/
def CallsKeep
    (size : BlockSize)
    (Places : Nat → Prop)
    (Holds Sized : Nat → σ → Prop)
    (action : Action (Noted σ) α)
    (known : Known) :
    Prop :=
  ∀ before : Noted σ, known.In Holds Sized before.state →
    (∀ call ∈ before.calls, KeepsToBlock size Places Sized call) →
      ∀ call ∈ (action.execute before).2.calls,
        KeepsToBlock size Places Sized call

/-- Besides, if the action succeeds, its answer and what is then known of the
file satisfy `after`. -/
structure Orderly
    (size : BlockSize)
    (Places : Nat → Prop)
    (Holds Sized : Nat → σ → Prop)
    (action : Action (Noted σ) α)
    (known : Known)
    (after : α → Known → Prop) :
    Prop where
  calls : CallsKeep size Places Holds Sized action known
  answers : ∀ before answer reached, known.In Holds Sized before.state →
    action.execute before = (.ok answer, reached) →
      ∃ now : Known, now.In Holds Sized reached.state ∧ after answer now

variable
  {size : BlockSize}
  {Places Cuts : Nat → Prop}
  {Holds Sized : Nat → σ → Prop}
  {known : Known}
  {held : Nat}
  {lower : Layer σ}
  {path : Path}
  {Handles : FileHandle → Prop}

theorem callsKeep_noting
    {call : MemoryCall}
    {action : Action σ α}
    (keeps : ∀ state, known.In Holds Sized state →
      KeepsToBlock size Places Sized (state, call)) :
    CallsKeep size Places Holds Sized (Noted.noting call action) known := by
  intro before holds kept made listed
  rcases List.mem_cons.mp listed with rfl | earlier
  · exact keeps before.state holds
  · exact kept made earlier

theorem CallsKeep.bind_pure
    {action : Action (Noted σ) α}
    (keeps : CallsKeep size Places Holds Sized action known)
    (answer : α → β) :
    CallsKeep size Places Holds Sized
      (action >>= fun value => pure (answer value)) known := by
  intro before holds kept
  have calls := keeps before holds kept
  rw [Action.execute_bind]
  generalize action.execute before = ran at *
  rcases ran with ⟨found, reached⟩
  cases found <;> exact calls

namespace Orderly

theorem pure
    {value : α}
    {after : α → Known → Prop}
    (holds : after value known) :
    Orderly size Places Holds Sized (Pure.pure value) known after := by
  refine ⟨fun before _ kept => kept, ?_⟩
  intro before answer reached start ran
  cases ran
  exact ⟨known, start, holds⟩

theorem throw
    {error : Error}
    {after : α → Known → Prop} :
    Orderly size Places Holds Sized (MonadExcept.throw error) known after :=
  ⟨fun _ _ kept => kept, fun _ _ _ _ ran => nomatch ran⟩

theorem bind_calls
    {action : Action (Noted σ) α}
    {next : α → Action (Noted σ) β}
    {middle : α → Known → Prop}
    (first : Orderly size Places Holds Sized action known middle)
    (second : ∀ value now, middle value now →
      CallsKeep size Places Holds Sized (next value) now) :
    CallsKeep size Places Holds Sized (action >>= next) known := by
  intro before start kept
  have calls := first.calls before start kept
  rw [Action.execute_bind]
  cases ran : action.execute before with
  | mk answer reached =>
      rw [ran] at calls
      cases answer with
      | error error => exact calls
      | ok value =>
          rcases first.answers before value reached start ran with
            ⟨now, holds, found⟩
          exact second value now found reached holds calls

theorem bind
    {action : Action (Noted σ) α}
    {next : α → Action (Noted σ) β}
    {middle : α → Known → Prop}
    {after : β → Known → Prop}
    (first : Orderly size Places Holds Sized action known middle)
    (second : ∀ value now, middle value now →
      Orderly size Places Holds Sized (next value) now after) :
    Orderly size Places Holds Sized (action >>= next) known after := by
  refine ⟨first.bind_calls fun value now found =>
    (second value now found).calls, ?_⟩
  intro before answer final start ran
  rcases Action.execute_bind_eq_ok ran with ⟨value, reached, one, rest⟩
  rcases first.answers before value reached start one with
    ⟨now, holds, found⟩
  exact (second value now found).answers reached answer final holds rest

theorem weaken
    {action : Action (Noted σ) α}
    {stronger after : α → Known → Prop}
    (orderly : Orderly size Places Holds Sized action known stronger)
    (implied : ∀ answer now, stronger answer now → after answer now) :
    Orderly size Places Holds Sized action known after := by
  refine ⟨orderly.calls, ?_⟩
  intro before answer reached start ran
  rcases orderly.answers before answer reached start ran with
    ⟨now, holds, found⟩
  exact ⟨now, holds, implied answer now found⟩

/-- What is orderly when nothing is known is so whatever is known. -/
theorem of_lost
    {action : Action (Noted σ) α}
    {after : α → Known → Prop}
    (orderly : Orderly size Places Holds Sized action .lost after) :
    Orderly size Places Holds Sized action known after :=
  ⟨fun before _ => orderly.calls before trivial,
    fun before answer reached _ => orderly.answers before answer reached
      trivial⟩

/-- A call is orderly if it keeps to blocks; what it leaves behind is for the
layer to say. -/
theorem noting
    {call : MemoryCall}
    {action : Action σ α}
    {after : α → Known → Prop}
    (keeps : ∀ state, known.In Holds Sized state →
      KeepsToBlock size Places Sized (state, call))
    (answers : ∀ before answer reached, known.In Holds Sized before →
      action.execute before = (.ok answer, reached) →
        ∃ now : Known, now.In Holds Sized reached ∧ after answer now) :
    Orderly size Places Holds Sized (Noted.noting call action) known after := by
  refine ⟨callsKeep_noting keeps, ?_⟩
  intro before answer reached start ran
  rcases Prod.mk.inj ran with ⟨same, rfl⟩
  exact answers before.state answer _ start (Prod.ext same rfl)

/-- After a call that keeps to blocks nothing need be known. -/
theorem noting_lost
    {call : MemoryCall}
    {action : Action σ α}
    {answered : α → Prop}
    (keeps : ∀ state, KeepsToBlock size Places Sized (state, call))
    (answers : ∀ before answer reached,
      action.execute before = (.ok answer, reached) → answered answer) :
    Orderly size Places Holds Sized (Noted.noting call action) .lost
      (fun answer now => answered answer ∧ now = .lost) :=
  .noting (fun state _ => keeps state) fun before answer reached _ ran =>
    ⟨.lost, trivial, answers before answer reached ran, rfl⟩

/-- What is called at the end, whatever happened before, adds one call. -/
theorem finallyDo
    {action : Action (Noted σ) α}
    {after : α → Known → Prop}
    (body : Orderly size Places Holds Sized action known after)
    {call : MemoryCall}
    (free : ∀ state, KeepsToBlock size Places Sized (state, call))
    (closing : Action σ Unit) :
    CallsKeep size Places Holds Sized
      (Action.finallyDo action (Noted.noting call closing)) known := by
  intro before start kept
  have calls := body.calls before start kept
  have last : ((Action.finallyDo action
      (Noted.noting call closing)).execute before).2 =
        ((Noted.noting call closing).execute (action.execute before).2).2 := by
    simp only [Action.finallyDo, Action.execute_bind, Action.execute_attempt]
    cases (action.execute before).1 with
    | error error => rfl
    | ok value =>
        cases ((Noted.noting call closing).execute
          (action.execute before).2).1 <;> rfl
  rw [last]
  intro made listed
  rcases List.mem_cons.mp listed with rfl | earlier
  · exact free _
  · exact calls made earlier

end Orderly

/-! ## The calls of a layer that moves blocks -/

namespace MovesBlocks

variable (moves : MovesBlocks lower path size Handles Places Cuts Holds Sized)
include moves

theorem orderly_openFile
    (access : Access) :
    Orderly size Places Holds Sized (lower.watched.openFile path access)
      (.whole held) (fun opened now => Handles opened ∧ now = .whole held) := by
  refine .noting (fun _ _ => trivial) fun before opened after start ran => ?_
  rcases moves.openFile access held before opened after start ran with
    ⟨good, holds⟩
  exact ⟨.whole held, holds, good, rfl⟩

/-- A read delivers all that is held in its range, unless that lies behind the
end. -/
theorem orderly_read
    {handle : FileHandle}
    (good : Handles handle)
    {offset length : Nat}
    (spans : size.Spans held offset length) :
    Orderly size Places Holds Sized
      (lower.watched.read path handle offset length)
      (.whole held)
      (fun found now =>
        (offset < held → found.length = min length (held - offset)) ∧
          now = .whole held) := by
  refine .noting
    (fun state start => ⟨held, .inl (moves.sized held state start), spans⟩)
    fun before found after start ran => ?_
  rcases moves.read handle offset length held before found after good start
    ran with ⟨holds, delivered⟩
  exact ⟨.whole held, holds, delivered spans, rfl⟩

/-- Of a block that has no place nothing more is delivered than was asked
for. -/
theorem orderly_read_unplaced
    {handle : FileHandle}
    (good : Handles handle)
    {offset length : Nat}
    (nowhere : ¬Places offset)
    (spans : size.Spans 0 offset length) :
    Orderly size Places Holds Sized
      (lower.watched.read path handle offset length) .lost
      (fun found now => found.length ≤ length ∧ now = .lost) :=
  .noting_lost (fun _ => ⟨0, .inr ⟨rfl, nowhere⟩, spans⟩)
    fun before found after ran =>
      moves.readUnplaced handle offset length before found after good nowhere
        ran

/-- A write that starts no block past the end takes all of its bytes, and all
blocks are there. -/
theorem orderly_write
    {handle : FileHandle}
    (good : Handles handle)
    {offset : Nat}
    {data : Bytes}
    (placed : Places offset)
    (reaches : offset ≤ held)
    (spans : size.Spans held offset data.length) :
    Orderly size Places Holds Sized
      (lower.watched.write path handle offset data)
      (.whole held)
      (fun count now => count = data.length ∧
        now = .whole (max held (offset + data.length))) := by
  refine .noting
    (fun state start => ⟨held, .inl (moves.sized held state start), spans⟩)
    fun before count after start ran => ?_
  rcases moves.write handle offset data held before count after good
    (moves.sized held before start) placed spans ran with ⟨same, -, kept⟩
  exact ⟨.whole _, kept start reaches, same, rfl⟩

/-- A write to a file of which only the length is known takes all of its
bytes. -/
theorem orderly_write_sized
    {handle : FileHandle}
    (good : Handles handle)
    {offset : Nat}
    {data : Bytes}
    (placed : Places offset)
    (spans : size.Spans held offset data.length) :
    Orderly size Places Holds Sized
      (lower.watched.write path handle offset data)
      (.sized held)
      (fun count now => count = data.length ∧
        now = .sized (max held (offset + data.length))) := by
  refine .noting (fun state start => ⟨held, .inl start, spans⟩)
    fun before count after start ran => ?_
  rcases moves.write handle offset data held before count after good start
    placed spans ran with ⟨same, sized, -⟩
  exact ⟨.sized _, sized, same, rfl⟩

/-- A write of a block that has no place takes all of its bytes, and nothing is
known afterwards. -/
theorem orderly_write_unplaced
    {handle : FileHandle}
    (good : Handles handle)
    {offset : Nat}
    {data : Bytes}
    (nowhere : ¬Places offset)
    (spans : size.Spans 0 offset data.length) :
    Orderly size Places Holds Sized
      (lower.watched.write path handle offset data) .lost
      (fun count now => count = data.length ∧ now = .lost) :=
  .noting_lost (fun _ => ⟨0, .inr ⟨rfl, nowhere⟩, spans⟩)
    fun before count after ran =>
      moves.writeUnplaced handle offset data before count after good nowhere
        ran

theorem orderly_truncate
    {handle : Option FileHandle}
    (good : ∀ given ∈ handle, Handles given)
    {target : Nat}
    (within : Cuts target) :
    Orderly size Places Holds Sized (lower.watched.truncate path handle target)
      (.whole held) (fun _ now => now = .sized target) :=
  .noting (fun _ _ => trivial) fun before _ after start ran =>
    ⟨.sized target,
      moves.truncate handle target held before after good start within ran,
      rfl⟩

theorem orderly_fileSize
    {handle : Option FileHandle}
    (good : ∀ given ∈ handle, Handles given) :
    Orderly size Places Holds Sized (lower.watched.fileSize path handle)
      (.whole held) (fun found now => found = held ∧ now = .whole held) := by
  refine .noting (fun _ _ => trivial) fun before found after start ran => ?_
  rcases moves.fileSize handle held before found after good start ran with
    ⟨same, holds⟩
  exact ⟨.whole held, holds, same, rfl⟩

theorem orderly_evenSize
    {handle : Option FileHandle}
    (good : ∀ given ∈ handle, Handles given)
    (even : size.inside held = 0) :
    Orderly size Places Holds Sized (lower.watched.fileSize path handle)
      (.sized held) (fun found now => found = held ∧ now = .sized held) := by
  refine .noting (fun _ _ => trivial) fun before found after start ran => ?_
  rcases moves.evenSize handle held before found after good start even ran
    with ⟨same, sized⟩
  exact ⟨.sized held, sized, same, rfl⟩

/-- A write to a file whose blocks are all there, wherever it starts: behind
the end it leaves a hole. -/
theorem orderly_write_anywhere
    {handle : FileHandle}
    (good : Handles handle)
    {offset : Nat}
    {data : Bytes}
    (placed : Places offset)
    (spans : size.Spans held offset data.length) :
    Orderly size Places Holds Sized
      (lower.watched.write path handle offset data)
      (.whole held)
      (fun count now => count = data.length ∧
        (now = .whole (max held (offset + data.length)) ∧ offset ≤ held ∨
          now = .sized (offset + data.length) ∧ held < offset)) := by
  rcases Nat.lt_or_ge held offset with past | reaches
  · refine .noting
      (fun state start => ⟨held, .inl (moves.sized held state start), spans⟩)
      fun before count after start ran => ?_
    rcases moves.write handle offset data held before count after good
      (moves.sized held before start) placed spans ran with ⟨same, sized, -⟩
    rw [Nat.max_eq_right (by omega)] at sized
    exact ⟨.sized _, sized, same, .inr ⟨rfl, past⟩⟩
  · exact (moves.orderly_write good placed reaches spans).weaken
      fun count now written => ⟨written.1, .inl ⟨written.2, reaches⟩⟩

end MovesBlocks

/-! ## Reading and writing -/

open Align

variable
  (moves : MovesBlocks lower path size Handles Places Cuts Holds Sized)
  {handle : FileHandle}
  (good : Handles handle)
include moves good

theorem orderly_readPiece
    {offset length : Nat}
    (some : 0 < length)
    (fits : size.inside offset + length ≤ size.bytes) :
    Orderly size Places Holds Sized
      (readPiece size lower.watched path handle offset length) (.whole held)
      (fun found now => found.length ≤ length ∧ now = .whole held) := by
  have request :
      Orderly size Places Holds Sized
        (requestLength size lower.watched path handle offset length)
        (.whole held)
        (fun request now =>
          size.Spans held (size.start offset) request ∧
            now = .whole held) := by
    have even := size.inside_start offset
    unfold requestLength
    dsimp only
    split
    · exact .pure ⟨⟨even, by omega, Nat.le_refl _, by omega⟩, rfl⟩
    · refine (moves.orderly_fileSize (by simpa using good)).bind
        fun stored now asked => ?_
      rcases asked with ⟨rfl, rfl⟩
      exact .pure ⟨⟨even, by omega, by omega, by omega⟩, rfl⟩
  refine request.bind fun request now asked => ?_
  rcases asked with ⟨spans, rfl⟩
  refine (moves.orderly_read good spans).bind fun block now found => ?_
  rcases found with ⟨-, rfl⟩
  exact .pure ⟨List.length_take_le _ _, rfl⟩

theorem orderly_readFrom
    (offset wanted : Nat)
    (done : List Bytes) :
    Orderly size Places Holds Sized
      (readFrom size lower.watched path handle offset wanted done)
      (.whole held)
      (fun found now =>
        found.length ≤ done.reverse.flatten.length + wanted ∧
          now = .whole held) := by
  induction offset, wanted, done using readFrom.induct size with
  | case1 offset done =>
      rw [readFrom, if_pos rfl]
      exact .pure ⟨Nat.le_add_right _ _, rfl⟩
  | case2 offset wanted done some length ih =>
      have room : size.room offset = size.bytes - size.inside offset := rfl
      have positive := size.room_pos offset
      have inside := size.inside_lt offset
      have piece : min (size.room offset) wanted = length := rfl
      clear_value length
      rw [readFrom, if_neg some, piece]
      refine (orderly_readPiece moves good (by omega) (by omega)).bind
        fun found now read => ?_
      rcases read with ⟨short, rfl⟩
      have more : (found :: done).reverse.flatten.length =
          done.reverse.flatten.length + found.length := by
        rw [List.reverse_cons, List.flatten_append, List.length_append,
          List.flatten_singleton]
      split
      · exact .pure ⟨by omega, rfl⟩
      · refine (ih found).weaken fun all now rest => ?_
        exact ⟨by omega, rest.2⟩

/-- What a write back takes in is what the read before it delivered and the
bytes that were put in. -/
theorem orderly_rewriteBlock
    {block inside : Nat}
    {data : Bytes}
    (even : size.inside block = 0)
    (there : block < held)
    (nonempty : data ≠ [])
    (fits : inside + data.length ≤ size.bytes)
    (placed : Places block) :
    Orderly size Places Holds Sized
      (rewriteBlock size lower.watched path handle block inside (held - block)
        data) (.whole held)
      (fun count now => count = data.length ∧
        ∃ longer, now = .whole longer ∧
          block + inside + data.length ≤ longer) := by
  have positive := size.positive
  refine (moves.orderly_read good
    ⟨even, by omega, by omega, by omega⟩).bind fun present now found => ?_
  rcases found with ⟨delivered, rfl⟩
  have delivered := delivered there
  have changed := Bytes.length_splice present inside data
  rw [if_neg nonempty] at changed
  refine (moves.orderly_write good placed (Nat.le_of_lt there)
    ⟨even, by omega, by omega, by omega⟩).bind fun count now taken => ?_
  rcases taken with ⟨rfl, rfl⟩
  rw [if_neg (Nat.lt_irrefl _)]
  exact .pure ⟨rfl, _, rfl, by omega⟩

/-- A piece of a write that starts no block past the end leaves all blocks
there, and one that leaves a hole is a full block. -/
theorem orderly_writePiece
    {offset : Nat}
    {data : Bytes}
    (nonempty : data ≠ [])
    (fits : size.inside offset + data.length ≤ size.bytes)
    (placed : Places (size.start offset)) :
    Orderly size Places Holds Sized
      (writePiece size lower.watched path handle offset data) (.whole held)
      (fun count now => count = data.length ∧
        ((∃ longer, now = .whole longer ∧
            (offset ≤ held → offset + data.length ≤ longer)) ∨
          now = .sized (offset + data.length) ∧ held < offset ∧
            size.inside (offset + data.length) = 0)) := by
  have some := List.length_pos_iff.mpr nonempty
  have even := size.inside_start offset
  have position := size.start_add_inside offset
  unfold writePiece
  dsimp only
  split
  · rename_i covered
    rcases covered with ⟨first, full⟩
    have start : size.start offset = offset := by omega
    rw [start] at placed ⊢
    refine (moves.orderly_write_anywhere good placed
      ⟨first, some, by omega, by omega⟩).weaken fun count now written => ?_
    rcases written with ⟨same, ⟨rfl, -⟩ | ⟨rfl, past⟩⟩
    · exact ⟨same, .inl ⟨_, rfl, fun _ => Nat.le_max_right _ _⟩⟩
    · refine ⟨same, .inr ⟨rfl, past, ?_⟩⟩
      rw [full, BlockSize.inside, Nat.add_mod_right]
      exact first
  · have direct
        (whole : min size.bytes (held - size.start offset) ≤ data.length)
        (starts : size.start offset ≤ held)
        (first : size.inside offset = 0) :
        Orderly size Places Holds Sized
          (lower.watched.write path handle (size.start offset) data)
          (.whole held)
          (fun count now => count = data.length ∧
            ((∃ longer, now = .whole longer ∧
                (offset ≤ held → offset + data.length ≤ longer)) ∨
              now = .sized (offset + data.length) ∧ held < offset ∧
                size.inside (offset + data.length) = 0)) := by
      refine (moves.orderly_write good placed starts
        ⟨even, some, by omega, whole⟩).weaken fun count now written => ?_
      exact ⟨written.1, .inl ⟨_, written.2, by omega⟩⟩
    refine (moves.orderly_fileSize (by simpa using good)).bind
      fun stored now asked => ?_
    rcases asked with ⟨rfl, rfl⟩
    split
    · split
      · exact .throw
      · exact direct (by omega) (by omega) (by omega)
    · split
      · exact direct (by omega) (by omega) (by omega)
      · refine (orderly_rewriteBlock moves good even (by omega) nonempty fits
          placed).weaken fun count now written => ?_
        rcases written with ⟨same, longer, rfl, reaches⟩
        exact ⟨same, .inl ⟨longer, rfl, by omega⟩⟩

/-- Behind a hole a piece of a write goes to the end of the file. -/
theorem orderly_writePiece_behind
    {offset : Nat}
    {data : Bytes}
    (nonempty : data ≠ [])
    (fits : data.length ≤ size.bytes)
    (even : size.inside offset = 0)
    (placed : Places (size.start offset)) :
    Orderly size Places Holds Sized
      (writePiece size lower.watched path handle offset data) (.sized offset)
      (fun count now => count = data.length ∧
        now = .sized (offset + data.length)) := by
  have some := List.length_pos_iff.mpr nonempty
  have position := size.start_add_inside offset
  have start : size.start offset = offset := by omega
  rw [start] at placed
  have written :
      Orderly size Places Holds Sized
        (lower.watched.write path handle offset data) (.sized offset)
        (fun count now => count = data.length ∧
          now = .sized (offset + data.length)) := by
    refine (moves.orderly_write_sized good placed
      ⟨even, some, fits, by omega⟩).weaken fun count now taken => ?_
    rwa [Nat.max_eq_right (Nat.le_add_right _ _)] at taken
  unfold writePiece
  dsimp only
  rw [start, even]
  split
  · exact written
  · refine (moves.orderly_evenSize (by simpa using good) even).bind
      fun stored now asked => ?_
    rcases asked with ⟨rfl, rfl⟩
    rw [if_pos (Nat.le_refl _), if_neg (by omega)]
    exact written

/-- A piece of a write that goes to a block without a place, whatever the layer
says of the size and delivers. -/
theorem orderly_writePiece_unplaced
    {offset : Nat}
    {data : Bytes}
    (nonempty : data ≠ [])
    (fits : size.inside offset + data.length ≤ size.bytes)
    (nowhere : ¬Places (size.start offset)) :
    Orderly size Places Holds Sized
      (writePiece size lower.watched path handle offset data) .lost
      (fun count now => count = data.length ∧ now = .lost) := by
  have some := List.length_pos_iff.mpr nonempty
  have even := size.inside_start offset
  have written := moves.orderly_write_unplaced good nowhere
    ⟨even, some, by omega, by omega⟩
  unfold writePiece
  dsimp only
  split
  · exact written
  have asked : Orderly size Places Holds Sized
      (lower.watched.fileSize path (Option.some handle)) .lost
      (fun _ now => True ∧ now = .lost) :=
    .noting_lost (fun _ => trivial) fun _ _ _ _ => trivial
  refine asked.bind fun stored now same => ?_
  obtain rfl := same.2
  split
  · split
    · exact .throw
    · exact written
  split
  · exact written
  refine (moves.orderly_read_unplaced good nowhere
    ⟨even, by omega, by omega, by omega⟩).bind fun present now found => ?_
  rcases found with ⟨delivered, rfl⟩
  have changed := Bytes.length_splice present (size.inside offset) data
  rw [if_neg nonempty] at changed
  refine (moves.orderly_write_unplaced good nowhere
    ⟨even, by omega, by omega, by omega⟩).bind fun count now taken => ?_
  rcases taken with ⟨rfl, rfl⟩
  rw [if_neg (Nat.lt_irrefl _)]
  exact .pure ⟨rfl, rfl⟩

/-- A write takes all of its bytes.  If it starts no block past the end, all
blocks are there afterwards, up to those that have no place. -/
theorem orderly_writeFrom
    (offset : Nat)
    (data : Bytes)
    (done : Nat)
    (continues : known.Continues size Places offset data) :
    Orderly size Places Holds Sized
      (writeFrom size lower.watched path handle offset data done) known
      (fun count now => count = done + data.length ∧
        (known.Reaches size Places offset →
          now.Reaches size Places (offset + data.length))) := by
  induction offset, data, done using writeFrom.induct size
    generalizing known with
  | case1 offset done =>
      rw [writeFrom, dif_pos rfl]
      exact .pure ⟨rfl, id⟩
  | case2 offset data done nonempty piece =>
      rename_i ih
      have room : size.room offset = size.bytes - size.inside offset := rfl
      have positive := size.room_pos offset
      have inside := size.inside_lt offset
      have some := List.length_pos_iff.mpr nonempty
      have first : data.take (size.room offset) = piece := rfl
      have pieceLength : piece.length = min (size.room offset) data.length :=
        List.length_take
      have rest := List.length_drop (i := piece.length) (l := data)
      clear_value piece
      have pieceNonempty : piece ≠ [] :=
        List.ne_nil_of_length_pos (by omega)
      have ends : offset + piece.length + (data.drop piece.length).length =
          offset + data.length := by
        omega
      rw [writeFrom, dif_neg nonempty, first]
      -- The rest of the write goes on behind the piece.
      have goesOn {now : Known} {count : Nat}
          (taken : count = piece.length)
          (reaches : known.Reaches size Places offset →
            now.Reaches size Places (offset + piece.length))
          (onward : now.Continues size Places (offset + piece.length)
            (data.drop piece.length)) :
          Orderly size Places Holds Sized
            (if count < piece.length then Pure.pure (done + count)
              else writeFrom size lower.watched path handle
                (offset + piece.length) (data.drop piece.length)
                (done + piece.length))
            now
            (fun count now => count = done + data.length ∧
              (known.Reaches size Places offset →
                now.Reaches size Places (offset + data.length))) := by
        rw [if_neg (by omega)]
        refine (ih count onward).weaken fun all now written => ?_
        refine ⟨by omega, fun start => ?_⟩
        have reached := written.2 (reaches start)
        rwa [ends] at reached
      by_cases nowhere : ¬Places (size.start offset)
      · refine ((orderly_writePiece_unplaced moves good pieceNonempty
          (by omega) nowhere).of_lost).bind fun count now written => ?_
        rcases written with ⟨taken, rfl⟩
        have later : ¬Places (size.start (offset + piece.length)) :=
          fun placed => nowhere (moves.earlier _ _ placed
            (size.start_le (Nat.le_add_right _ _)))
        exact goesOn taken (fun _ => later) later
      have placed := not_not.mp nowhere
      cases known with
      | whole held =>
          refine (orderly_writePiece moves good pieceNonempty (by omega)
            placed).bind fun count now written => ?_
          rcases written with
            ⟨taken, ⟨longer, rfl, reaches⟩ | ⟨rfl, past, even⟩⟩
          · exact goesOn taken reaches trivial
          · exact goesOn taken
              (fun there => absurd past (Nat.not_lt_of_le there))
              (.inr ⟨rfl, even⟩)
      | sized held =>
          rcases continues.resolve_left nonempty with ⟨rfl, even⟩
          refine (orderly_writePiece_behind moves good pieceNonempty
            (by omega) even placed).bind fun count now written => ?_
          rcases written with ⟨taken, rfl⟩
          refine goesOn taken (fun start => start.elim) ?_
          -- A piece that is no full block is the last one.
          rcases Nat.lt_or_ge data.length size.bytes with short | full
          · exact .inl (List.length_eq_zero_iff.mp (by omega))
          · refine .inr ⟨rfl, ?_⟩
            have whole : piece.length = size.bytes := by omega
            rw [whole, BlockSize.inside, Nat.add_mod_right]
            exact even
      | lost => exact absurd placed continues

/-! ## Changing the length -/

theorem orderly_fillTo
    {target : Nat}
    (offset : Nat)
    (reaches : known.Reaches size Places offset) :
    Orderly size Places Holds Sized
      (fillTo size lower.watched path handle target offset) known
      (fun _ _ => True) := by
  induction offset using fillTo.induct target generalizing known with
  | case1 offset before length =>
      rename_i ih
      have chunk : min (target - offset) fillChunk = length := rfl
      clear_value length
      rw [fillTo, if_pos before, chunk]
      refine (orderly_writeFrom moves good offset (Bytes.zeros length) 0
        reaches.continues).bind fun count now written => ?_
      split
      · exact .throw
      · have onward := written.2 reaches
        rw [Bytes.length_zeros] at onward
        exact ih count onward
  | case2 offset reached =>
      rw [fillTo, if_neg reached]
      exact .pure trivial

/-- The part of the last block that is written anew is all that a cut leaves
of it. -/
theorem orderly_truncateOpen
    {target : Nat}
    (within : target ≤ held → Cuts target) :
    Orderly size Places Holds Sized
      (truncateOpen size lower.watched path handle target) (.whole held)
      (fun _ _ => True) := by
  have position := size.start_add_inside target
  have inside := size.inside_lt target
  have even := size.inside_start target
  -- Nothing is written behind a cut that keeps no part of a block.
  have evenly {now : Known} :
      Orderly size Places Holds Sized
        (do
          lower.watched.truncate path (some handle) target
          if !([] : Bytes).isEmpty then
            let written ←
              lower.watched.write path handle (size.start target) []
            if written < ([] : Bytes).length then
              throw (.shortTransfer ([] : Bytes).length written))
        now (fun _ _ => True) := by
    have cut : Orderly size Places Holds Sized
        (lower.watched.truncate path (some handle) target) .lost
        (fun _ now => True ∧ now = .lost) :=
      .noting_lost (fun _ => trivial) fun _ _ _ _ => trivial
    exact (cut.bind fun _ _ _ => .pure trivial).of_lost
  refine (moves.orderly_fileSize (by simpa using good)).bind
    fun current now asked => ?_
  rcases asked with ⟨rfl, rfl⟩
  dsimp only
  split
  · exact (orderly_fillTo moves good _ (Nat.le_refl _)).bind
      fun _ now _ => evenly
  split
  · rename_i shorter partly
    have kept : Orderly size Places Holds Sized
        (keptPart size lower.watched path handle target) (.whole current)
        (fun part now => part.length = size.inside target ∧
          now = .whole current) := by
      refine (orderly_readFrom moves good _ _ []).bind
        fun part now read => ?_
      rcases read with ⟨short, rfl⟩
      split
      · exact .throw
      · refine .pure ⟨?_, rfl⟩
        simp only [List.reverse_nil, List.flatten_nil, List.length_nil]
          at short
        omega
    refine kept.bind fun part now whole => ?_
    rcases whole with ⟨length, rfl⟩
    have some : 0 < part.length := by omega
    refine (moves.orderly_truncate (by simpa using good)
      (within (by omega))).bind fun _ now same => ?_
    obtain rfl := same
    have written : Orderly size Places Holds Sized
        (lower.watched.write path handle (size.start target) part)
        (.sized target) (fun _ _ => True) := by
      by_cases placed : Places (size.start target)
      · exact (moves.orderly_write_sized good placed
          ⟨even, some, by omega, by omega⟩).weaken fun _ _ _ => trivial
      · exact ((moves.orderly_write_unplaced good placed
          ⟨even, some, by omega, by omega⟩).weaken
            fun _ _ _ => trivial).of_lost
    split
    · refine written.bind fun count now _ => ?_
      split
      · exact .throw
      · exact .pure trivial
    · exact .pure trivial
  · exact evenly

omit good in
/-- Every read and write that a request to the aligning stage makes keeps to
blocks. -/
theorem aligned_callsKeep
    (request : FileRequest)
    (good : ∀ given ∈ request.handle?, Handles given)
    (within : ∀ target ≤ held, Cuts target) :
    CallsKeep size Places Holds Sized
      ((lower.watched.aligned size).perform path request) (.whole held) := by
  cases request with
  | read handle offset length =>
      have good : Handles handle := good handle rfl
      exact (orderly_readFrom moves good offset length []).calls.bind_pure _
  | write handle offset data =>
      have good : Handles handle := good handle rfl
      exact (orderly_writeFrom moves good offset data 0
        (Known.continues_whole _)).calls.bind_pure _
  | truncate handle target =>
      refine CallsKeep.bind_pure ?_ _
      cases handle with
      | some given =>
          exact (orderly_truncateOpen moves (good given rfl)
            (within target)).calls
      | none =>
          refine (moves.orderly_openFile .readWrite).bind_calls
            fun opened now found => ?_
          rcases found with ⟨fine, rfl⟩
          refine (orderly_truncateOpen moves fine (within target)).finallyDo
            ?_ (lower.release path opened)
          exact fun _ => trivial
  | fileSize handle =>
      refine CallsKeep.bind_pure (callsKeep_noting ?_) _
      exact fun _ _ => trivial
  | attributes handle =>
      refine CallsKeep.bind_pure (callsKeep_noting ?_) _
      exact fun _ _ => trivial

end Layer

end Strata
