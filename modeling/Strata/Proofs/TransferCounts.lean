import Mathlib
import Strata.Proofs.MirroredLayers
import Strata.Proofs.ShortTransfers

/-!
# What transfers count

A layer may move fewer bytes than it was asked for, and says how many it moved.
The aligning stage makes other requests than it is given: it reads and writes
whole blocks, with bytes in front of the given range and behind it.  What the
layer below counts for such a block is turned into a count of the given bytes,
and the counts of the blocks are added up.

The main result says that the sum is true, whatever is cut short: as many bytes
as are counted were moved between the file and the front of the caller's bytes,
nothing else of a buffer is touched, and everything is counted if nothing was
cut short.
-/

namespace Strata

/-! ## Ranges that were written -/

namespace Bytes

/-- What was written is where it was written. -/
theorem slice_splice_length
    (bytes : Bytes)
    (offset : Nat)
    (data : Bytes) :
    (bytes.splice offset data).slice offset data.length = data := by
  apply List.ext_getElem?
  grind

/-- A range in front of the written one is what it was. -/
theorem SameOutside.slice_eq
    {offset count start length : Nat}
    {old new : Bytes}
    (same : SameOutside offset count old new)
    (there : start + length ≤ old.length)
    (before : start + length ≤ offset) :
    new.slice start length = old.slice start length := by
  apply List.ext_getElem?
  intro position
  rw [getElem?_slice, getElem?_slice]
  split
  · exact same.same _ (by omega) (.inl (by omega))
  · rfl

/-- What is counted of a part of a block that is written back is where the part
was to go, however much of the block was taken. -/
theorem slice_rewritten
    (old present : Bytes)
    {block inside taken : Nat}
    {data : Bytes}
    (nonempty : data ≠ [])
    {written : Nat}
    (counted : written =
      if taken < (splice present inside data).length then
        min (taken - inside) data.length
      else data.length) :
    (old.splice block ((present.splice inside data).take taken)).slice
        (block + inside) written =
      data.take written := by
  have changed := length_splice present inside data
  rw [if_neg nonempty] at changed
  apply List.ext_getElem?
  intro position
  rw [getElem?_slice, List.getElem?_take]
  split
  · rename_i inRange
    have reached : inside + position < taken ∧
        inside + position < (splice present inside data).length := by
      split at counted <;> omega
    have some : (present.splice inside data).take taken ≠ [] := by
      refine List.ne_nil_of_length_pos ?_
      rw [List.length_take]
      omega
    have back : block + inside + position - block = inside + position := by
      omega
    have within : block + inside + position <
        block + ((present.splice inside data).take taken).length := by
      rw [List.length_take]
      omega
    have there : position < data.length := by
      split at counted <;> omega
    rw [getElem?_splice, if_neg some, if_neg (by omega), if_pos within, back,
      List.getElem?_take, if_pos reached.1, getElem?_splice, if_neg nonempty,
      if_neg (by omega), if_pos (by omega), Nat.add_sub_cancel_left]
  · rfl

end Bytes

/-! ## Layers that tell of short transfers -/

namespace Layer

variable {σ : Type}

/-- A layer that moves prefixes and whose states tell of it: once a transfer
came up short, `Short` holds and stays. -/
structure TellsShort
    (layer : Layer σ)
    (path : Path)
    (contents : σ → Bytes)
    (Short : σ → Prop) : Prop extends
    MovesPrefixes layer path contents where
  after_fileSize : ∀ handle before size after,
    (layer.fileSize path handle).execute before = (.ok size, after) →
      Short before → Short after
  after_read : ∀ handle offset length before found after,
    (layer.read path handle offset length).execute before =
        (.ok found, after) →
      Short before ∨ found ≠ (contents before).slice offset length →
        Short after
  after_write : ∀ handle offset data before count after,
    (layer.write path handle offset data).execute before =
        (.ok count, after) →
      Short before ∨ count ≠ data.length → Short after

end Layer

/-- The state of a layer, and whether one of its transfers came up short. -/
structure Tallied
    (σ : Type) where
  state : σ
  short : Bool := false

namespace Tallied

variable {σ α : Type}

/-- An action whose answer may show that a transfer came up short. -/
def judging
    (action : Action σ α)
    (isShort : σ → α → Bool) :
    Action (Tallied σ) α :=
  Action.ofRun fun tallied =>
    match action.execute tallied.state with
    | (.ok value, state) =>
      (.ok value, ⟨state, tallied.short || isShort tallied.state value⟩)
    | (.error error, state) => (.error error, ⟨state, tallied.short⟩)

theorem judging_mirrors
    (action : Action σ α)
    (isShort : σ → α → Bool) :
    (judging action isShort).Mirrors state action := by
  intro tallied
  rw [judging, Action.execute_ofRun]
  rcases action.execute tallied.state with ⟨_ | _, _⟩ <;> exact ⟨rfl, rfl⟩

theorem execute_judging_eq_ok
    {action : Action σ α}
    {isShort : σ → α → Bool}
    {before after : Tallied σ}
    {value : α}
    (ran : (judging action isShort).execute before = (.ok value, after)) :
    action.execute before.state = (.ok value, after.state) ∧
      after.short = (before.short || isShort before.state value) := by
  rw [judging, Action.execute_ofRun] at ran
  rcases acted : action.execute before.state with ⟨_ | found, reached⟩
  · simp [acted] at ran
  · simp only [acted, Prod.mk.injEq, Except.ok.injEq] at ran
    rcases ran with ⟨rfl, rfl⟩
    exact ⟨rfl, rfl⟩

/-- What an action does, the one that mirrors it does with a note. -/
theorem exists_short
    {whole : Action (Tallied σ) α}
    {plain : Action σ α}
    {before after : σ}
    {value : α}
    (mirrors : whole.Mirrors state plain)
    (ran : plain.execute before = (.ok value, after)) :
    ∃ short, whole.execute ⟨before, false⟩ = (.ok value, ⟨after, short⟩) := by
  rcases mirrors ⟨before, false⟩ with ⟨answer, left⟩
  rw [ran] at answer left
  exact ⟨_, Prod.ext answer (congrArg (Tallied.mk · _) left)⟩

end Tallied

namespace Layer

open Tallied

variable {σ : Type}

/-- A layer that notes whether a transfer on the file with the given contents
came up short. -/
def tallied
    (layer : Layer σ)
    (contents : σ → Bytes) :
    Layer (Tallied σ) :=
  { Layer.bottom layer.name with
    read := fun path handle offset length =>
      judging (layer.read path handle offset length) fun before found =>
        found.length < ((contents before).slice offset length).length
    write := fun path handle offset data =>
      judging (layer.write path handle offset data) fun _ count =>
        count < data.length
    truncate := fun path handle size =>
      judging (layer.truncate path handle size) fun _ _ => false
    fileSize := fun path handle =>
      judging (layer.fileSize path handle) fun _ _ => false }

variable
  {lower : Layer σ}
  {path : Path}
  {contents : σ → Bytes}

/-- Every layer that moves prefixes tells as much as nothing. -/
theorem MovesPrefixes.tells_true
    (moves : MovesPrefixes lower path contents) :
    TellsShort lower path contents fun _ => True :=
  { moves with
    after_fileSize := fun _ _ _ _ _ _ => trivial
    after_read := fun _ _ _ _ _ _ _ _ => trivial
    after_write := fun _ _ _ _ _ _ _ _ => trivial }

/-- Noting it changes nothing. -/
theorem tallied_relates
    (lower : Layer σ)
    (contents : σ → Bytes)
    (path : Path)
    (handle : FileHandle) :
    Relates (Action.Mirrors state) (lower.tallied contents) lower path
      handle where
  read _ _ := judging_mirrors _ _
  write _ _ := judging_mirrors _ _
  truncate _ := judging_mirrors _ _
  fileSize := judging_mirrors _ _

theorem MovesPrefixes.tallied
    (moves : MovesPrefixes lower path contents) :
    TellsShort (lower.tallied contents) path (fun after => contents after.state)
      (fun after => after.short = true) := by
  constructor
  case toMovesPrefixes =>
    constructor
    all_goals dsimp only [Layer.tallied]
    case fileSize =>
      intro handle before size after ran
      exact moves.fileSize _ _ _ _ (execute_judging_eq_ok ran).1
    case read =>
      intro handle offset length before found after ran
      exact moves.read _ _ _ _ _ _ (execute_judging_eq_ok ran).1
    case write =>
      intro handle offset data before count after ran
      exact moves.write _ _ _ _ _ _ (execute_judging_eq_ok ran).1
  all_goals dsimp only [Layer.tallied]
  case after_fileSize =>
    intro handle before size after ran short
    rw [(execute_judging_eq_ok ran).2, short]
    rfl
  case after_read =>
    intro handle offset length before found after ran short
    rcases execute_judging_eq_ok ran with ⟨answered, noted⟩
    have least := (moves.read _ _ _ _ _ _ answered).2
    rw [noted, Bool.or_eq_true, decide_eq_true_eq]
    refine short.imp_right fun differs => ?_
    exact Nat.lt_of_le_of_ne least.length_le
      fun same => differs (least.eq_of_length same)
  case after_write =>
    intro handle offset data before count after ran short
    rcases execute_judging_eq_ok ran with ⟨answered, noted⟩
    have least := (moves.write _ _ _ _ _ _ answered).1
    rw [noted, Bool.or_eq_true, decide_eq_true_eq]
    exact short.imp_right (Nat.lt_of_le_of_ne least)

/-! ## Counts of writes -/

open Align

variable
  {size : BlockSize}
  {Short : σ → Prop}
  (tells : TellsShort lower path contents Short)
  {handle : FileHandle}
  {before after : σ}

include tells

theorem rewriteBlock_written
    {block inside stored written : Nat}
    {data : Bytes}
    (nonempty : data ≠ [])
    (ran : (rewriteBlock size lower path handle block inside stored
      data).execute before = (.ok written, after)) :
    written ≤ data.length ∧
      (contents after).slice (block + inside) written = data.take written ∧
      (Short before ∨ written ≠ data.length → Short after) := by
  rcases rewriteBlock_eq_ok ran with
    ⟨present, read, taken, delivered, wrote, counted⟩
  have changed := (tells.write _ _ _ _ _ _ wrote).2
  refine ⟨?_, ?_, fun short => tells.after_write _ _ _ _ _ _ wrote ?_⟩
  · split at counted <;> omega
  · rw [changed]
    exact Bytes.slice_rewritten _ _ nonempty counted
  · refine short.imp ?_ ?_
    · exact fun already => tells.after_read _ _ _ _ _ _ delivered (.inl already)
    · intro fewer complete
      rw [if_neg (by omega)] at counted
      exact fewer counted

/-- What is counted of a piece was written. -/
theorem writePiece_written
    {offset written : Nat}
    {data : Bytes}
    (nonempty : data ≠ [])
    (ran : (writePiece size lower path handle offset data).execute before =
      (.ok written, after)) :
    written ≤ data.length ∧
      (contents after).slice offset written = data.take written ∧
      (Short before ∨ written ≠ data.length → Short after) := by
  rcases writePiece_cases ran with ⟨reached, asked, wrote⟩
  have stays : Short before → Short reached := by
    rcases asked with rfl | ⟨stored, sized⟩
    · exact id
    · exact tells.after_fileSize _ _ _ _ sized
  rcases wrote with ⟨-, wrote⟩ | ⟨stored, rewrote⟩
  · rcases tells.write _ _ _ _ _ _ wrote with ⟨bound, changed⟩
    refine ⟨bound, ?_, fun short =>
      tells.after_write _ _ _ _ _ _ wrote (short.imp_left stays)⟩
    have there := Bytes.slice_splice_length (contents reached) offset
      (data.take written)
    rwa [List.length_take_of_le bound, ← changed] at there
  · rcases rewriteBlock_written tells nonempty rewrote with
      ⟨bound, there, told⟩
    rw [size.start_add_inside] at there
    exact ⟨bound, there, fun short => told (short.imp_left stays)⟩

/-- What is counted of all pieces was written: a piece behind another one does
not touch it. -/
theorem writeFrom_written
    (offset : Nat)
    (data : Bytes)
    (done : Nat)
    {count : Nat}
    (ran : (writeFrom size lower path handle offset data done).execute before =
      (.ok count, after)) :
    ∃ written,
      count = done + written ∧
        written ≤ data.length ∧
        (contents after).slice offset written = data.take written ∧
        (Short before ∨ written ≠ data.length → Short after) := by
  induction offset, data, done using writeFrom.induct size
    generalizing before with
  | case1 offset done =>
      rw [writeFrom, dif_pos rfl] at ran
      rcases Action.execute_pure_eq_ok ran with ⟨rfl, rfl⟩
      exact ⟨0, rfl, Nat.le_refl _, rfl, fun short => short.resolve_right
        (absurd rfl)⟩
  | case2 offset data done nonempty piece =>
      rename_i ih
      have first : data.take (size.room offset) = piece := rfl
      have pieceLength : piece.length = min (size.room offset) data.length :=
        List.length_take
      have room := size.room_pos offset
      have some := List.length_pos_iff.mpr nonempty
      have pieceNonempty : piece ≠ [] :=
        List.ne_nil_of_length_pos (by omega)
      have parts : piece ++ data.drop piece.length = data :=
        List.prefix_iff_eq_append.mp (List.take_prefix _ _)
      have next := next_piece_even size offset data
      rw [first] at next
      clear_value piece
      rw [writeFrom, dif_neg nonempty, first] at ran
      rcases Action.execute_bind_eq_ok ran with ⟨written, middle, wrote, rest⟩
      rcases writePiece_written tells pieceNonempty wrote with
        ⟨bound, there, told⟩
      split at rest
      · rename_i short
        rcases Action.execute_pure_eq_ok rest with ⟨rfl, rfl⟩
        refine ⟨written, rfl, by omega, ?_, fun _ =>
          told (.inr (Nat.ne_of_lt short))⟩
        rw [there, ← parts, List.take_append_of_le_length bound]
      · obtain rfl : written = piece.length := by omega
        rw [List.take_length] at there
        have reached := congrArg List.length there
        rw [Bytes.length_slice] at reached
        rcases ih 0 rest with ⟨more, sum, least, others, toldMore⟩
        have kept := (writeFrom_even tells.toMovesPrefixes _ _ _ next rest).2
        refine ⟨piece.length + more, by omega, ?_, ?_, fun short => ?_⟩
        · rw [List.length_drop] at least
          omega
        · rw [← Bytes.slice_append, others,
            kept.slice_eq (by omega) (Nat.le_refl _), there]
          conv_rhs => rw [← parts]
          rw [List.take_length_add_append]
        · refine toldMore (short.imp (fun already => told (.inl already)) ?_)
          intro fewer complete
          rw [List.length_drop] at complete
          omega

/-! ## Counts of reads -/

theorem readPiece_found
    {offset length : Nat}
    {piece : Bytes}
    (fits : size.inside offset + length ≤ size.bytes)
    (ran : (readPiece size lower path handle offset length).execute before =
      (.ok piece, after)) :
    contents after = contents before ∧
      piece <+: (contents before).slice offset length ∧
      (Short before ∨ piece ≠ (contents before).slice offset length →
        Short after) := by
  have position := size.start_add_inside offset
  rcases Action.execute_bind_eq_ok ran with ⟨request, sized, asked, rest⟩
  rcases Action.execute_bind_eq_ok rest with ⟨found, reached, read, last⟩
  rcases Action.execute_pure_eq_ok last with ⟨rfl, rfl⟩
  -- The request takes in the piece, whether or not it had to be sized.
  have requested : contents sized = contents before ∧
      size.inside offset + length ≤ request ∧
      (Short before → Short sized) := by
    unfold requestLength at asked
    dsimp only at asked
    split at asked
    · rcases Action.execute_pure_eq_ok asked with ⟨rfl, rfl⟩
      exact ⟨rfl, fits, id⟩
    · rcases Action.execute_bind_eq_ok asked with ⟨stored, told, size, most⟩
      rcases Action.execute_pure_eq_ok most with ⟨rfl, rfl⟩
      exact ⟨(tells.fileSize _ _ _ _ size).1, Nat.le_max_left _ _,
        tells.after_fileSize _ _ _ _ size⟩
  rcases requested with ⟨unchanged, covers, stays⟩
  rcases tells.read _ _ _ _ _ _ read with ⟨kept, delivered⟩
  have part : ((contents before).slice (size.start offset) request).slice
      (size.inside offset) length = (contents before).slice offset length := by
    rw [Bytes.slice_slice, position, Nat.min_eq_left (by omega)]
  rw [unchanged] at delivered
  refine ⟨kept.trans unchanged, ?_, fun short =>
    tells.after_read _ _ _ _ _ _ read (short.imp stays ?_)⟩
  · rw [← part]
    exact (delivered.drop _).take _
  · rintro fewer rfl
    rw [unchanged, part] at fewer
    exact fewer rfl

/-- What is read was stored in the range from its start on, and is all of it
unless a transfer came up short. -/
theorem readFrom_found
    (offset wanted : Nat)
    (done : List Bytes)
    {found : Bytes}
    (ran : (readFrom size lower path handle offset wanted done).execute before =
      (.ok found, after)) :
    contents after = contents before ∧
      ∃ more,
        found = done.reverse.flatten ++ more ∧
          more <+: (contents before).slice offset wanted ∧
          (Short before ∨ more ≠ (contents before).slice offset wanted →
            Short after) := by
  induction offset, wanted, done using readFrom.induct size
    generalizing before with
  | case1 offset done =>
      rw [readFrom, if_pos rfl] at ran
      rcases Action.execute_pure_eq_ok ran with ⟨rfl, rfl⟩
      refine ⟨rfl, [], (List.append_nil _).symm, List.nil_prefix, ?_⟩
      exact fun short => short.resolve_right (absurd rfl)
  | case2 offset wanted done some length =>
      rename_i ih
      have room : size.room offset = size.bytes - size.inside offset := rfl
      have inside := size.inside_lt offset
      have part : min (size.room offset) wanted = length := rfl
      clear_value length
      rw [readFrom, if_neg some, part] at ran
      rcases Action.execute_bind_eq_ok ran with ⟨piece, middle, read, rest⟩
      rcases readPiece_found tells (by omega) read with ⟨kept, least, told⟩
      have split := (contents before).slice_append offset length
        (wanted - length)
      rw [Nat.add_sub_cancel' (by omega)] at split
      split at rest
      · rename_i short
        rcases Action.execute_pure_eq_ok rest with ⟨rfl, rfl⟩
        refine ⟨kept, piece, by simp, ?_, fun fewer => told ?_⟩
        · rw [← split]
          exact least.trans (List.prefix_append _ _)
        · refine fewer.imp_right fun differs same => differs ?_
          have stored := Bytes.length_slice (contents before) offset length
          rw [← same] at stored
          rw [same]
          exact Bytes.slice_eq_slice _ (.inr ⟨by omega, by omega⟩)
      · rename_i full
        have whole : piece = (contents before).slice offset length := by
          refine least.eq_of_length_le ?_
          rw [Bytes.length_slice]
          omega
        rcases ih piece rest with ⟨same, more, joined, others, toldMore⟩
        rw [kept] at same others toldMore
        refine ⟨same, piece ++ more, ?_, ?_, fun short => toldMore ?_⟩
        · rw [joined]
          simp
        · rw [← split, whole]
          exact (List.prefix_append_right_inj _).mpr others
        · refine short.imp (fun already => told (.inl already)) ?_
          intro fewer all
          rw [← split, whole, all] at fewer
          exact fewer rfl

omit tells

/-! ## Reading into a buffer -/

section Buffers

variable
  (size : BlockSize)
  (lower : Layer σ)
  (path : Path)
  (handle : FileHandle)

/-- Copying block by block puts the bytes that reading gives into the front of
the buffer, whatever the scratch holds. -/
theorem copyFrom_eq
    (offset wanted : Nat)
    (pieces : List Bytes)
    (scratch buffer : Bytes) :
    copyFrom size lower path handle offset wanted
        pieces.reverse.flatten.length scratch
        (buffer.splice 0 pieces.reverse.flatten) =
      (do
        let found ← readFrom size lower path handle offset wanted pieces
        return (found.length, buffer.splice 0 found)) := by
  induction offset, wanted, pieces using readFrom.induct size
    generalizing scratch with
  | case1 offset pieces =>
      rw [copyFrom, if_pos rfl, readFrom, if_pos rfl, pure_bind]
  | case2 offset wanted pieces some length ih =>
      rw [copyFrom, if_neg some, readFrom, if_neg some]
      simp only [readPiece, bind_assoc, pure_bind]
      refine bind_congr fun request => bind_congr fun block => ?_
      have amount := Bytes.length_slice block (size.inside offset) length
      have joined (piece : Bytes) :
          (piece :: pieces).reverse.flatten =
            pieces.reverse.flatten ++ piece := by
        simp
      have room : min (size.room offset) wanted = length := rfl
      have positive := size.room_pos offset
      rw [room]
      split
      · rename_i behind
        have nothing : block.slice (size.inside offset) length = [] :=
          block.slice_eq_nil _ behind
        rw [nothing, if_pos (by simp only [List.length_nil]; omega), joined,
          List.append_nil, pure_bind]
      · rename_i reached
        have copied : (scratch.splice 0 block).slice (size.inside offset)
            (min (block.length - size.inside offset) length) =
              block.slice (size.inside offset) length := by
          apply List.ext_getElem?
          grind
        have put := Bytes.splice_splice buffer 0 pieces.reverse.flatten
          (block.slice (size.inside offset) length)
        rw [Nat.zero_add, ← joined] at put
        have count : pieces.reverse.flatten.length +
            min (block.length - size.inside offset) length =
              ((block.slice (size.inside offset) length ::
                pieces).reverse.flatten).length := by
          rw [joined, List.length_append, amount, Nat.min_comm]
        rw [copied, put, count, amount, Nat.min_comm length]
        split
        · rw [pure_bind]
        · exact ih _ _

theorem readInto_eq
    (offset : Nat)
    (buffer : Bytes) :
    readInto size lower path handle offset buffer =
      (do
        let found ← (lower.aligned size).read path handle offset buffer.length
        return (found.length, buffer.splice 0 found)) :=
  copyFrom_eq size lower path handle offset buffer.length [] _ buffer

end Buffers

/-! ## True counts -/

/--
Over any layer that moves prefixes, as many bytes as a write counts are in the
file where they were to go.  As many as a read counts are at the front of the
buffer, as they are stored, and the rest of the buffer is what it was.  If no
transfer of the layer below came up short, a write counts all its bytes, and a
read all that are stored in its range.  What is read into a buffer is what the
aligning stage answers.
-/
theorem aligned_transfers_counted
    (moves : MovesPrefixes lower path contents)
    (size : BlockSize)
    (handle : FileHandle)
    (offset : Nat)
    (before after : σ)
    (count : Nat) :
    (∀ data,
      ((lower.aligned size).write path handle offset data).execute before =
          (.ok count, after) →
        count ≤ data.length ∧
          (contents after).slice offset count = data.take count ∧
          ∃ short,
            (((lower.tallied contents).aligned size).write path handle offset
                data).execute ⟨before, false⟩ =
              (.ok count, ⟨after, short⟩) ∧
              (short = false → count = data.length)) ∧
      (∀ buffer filled,
        (readInto size lower path handle offset buffer).execute before =
            (.ok (count, filled), after) →
          count ≤ buffer.length ∧
            filled.take count = (contents before).slice offset count ∧
            filled.length = buffer.length ∧
            filled.drop count = buffer.drop count ∧
            contents after = contents before ∧
            ∃ short,
              (readInto size (lower.tallied contents) path handle offset
                  buffer).execute ⟨before, false⟩ =
                (.ok (count, filled), ⟨after, short⟩) ∧
                (short = false →
                  count =
                    ((contents before).slice offset
                      buffer.length).length)) ∧
      ∀ buffer : Bytes,
        readInto size lower path handle offset buffer =
          (do
            let found ←
              (lower.aligned size).read path handle offset buffer.length
            return (found.length, buffer.splice 0 found)) := by
  have relates := tallied_relates lower contents path handle
  have congruence := Action.Mirrors.congruence (Tallied.state (σ := σ))
  refine ⟨?_, ?_, readInto_eq size lower path handle offset⟩
  · intro data ran
    rcases exists_short (relates.writeFrom congruence size offset data 0) ran
      with ⟨short, noted⟩
    rcases writeFrom_written moves.tallied offset data 0 noted with
      ⟨written, sum, bound, there, told⟩
    obtain rfl : count = written := by omega
    refine ⟨bound, there, short, noted, fun complete => ?_⟩
    by_contra fewer
    exact Bool.false_ne_true (complete.symm.trans (told (.inr fewer)))
  · intro buffer filled ran
    have mirrors :
        (readInto size (lower.tallied contents) path handle offset
          buffer).Mirrors state (readInto size lower path handle offset
            buffer) := by
      rw [readInto_eq, readInto_eq]
      exact (relates.readFrom congruence size offset buffer.length []).bind
        fun _ => .pure _
    rcases exists_short mirrors ran with ⟨short, noted⟩
    have reads := noted
    rw [readInto_eq] at reads
    rcases Action.execute_bind_eq_ok reads with ⟨found, reached, read, last⟩
    rcases Action.execute_pure_eq_ok last with ⟨answered, rfl⟩
    rcases Prod.mk.inj answered with ⟨rfl, rfl⟩
    rcases readFrom_found moves.tallied offset buffer.length [] read with
      ⟨same, more, joined, least, told⟩
    obtain rfl : found = more := joined
    dsimp only at same least told
    have amount := least.length_le
    have stored := (contents before).length_slice offset buffer.length
    have parts : buffer.splice 0 found = found ++ buffer.drop found.length := by
      apply List.ext_getElem?
      grind
    refine ⟨by omega, ?_, ?_, ?_, same, short, noted, fun complete => ?_⟩
    · rw [parts, List.take_left, List.prefix_iff_eq_take.mp least,
        List.length_take, Nat.min_eq_left amount, Bytes.slice,
        List.take_take, Nat.min_eq_left (by omega), Bytes.slice]
    · rw [parts, List.length_append, List.length_drop]
      omega
    · rw [parts, List.drop_left]
    · by_contra fewer
      have fewer : found ≠ (contents before).slice offset buffer.length :=
        fun all => fewer (congrArg List.length all)
      exact Bool.false_ne_true (complete.symm.trans (told (.inr fewer)))

/-- A write whose second block is taken in part, and a read whose second block
is delivered in part. -/
theorem aligned_transfers_counted_of_limits :
    (∃ after,
      ((Memory.layer.aligned ⟨4, by decide⟩).write .root ⟨[]⟩ 2
          [7, 8, 9, 10, 11]).execute
          { files := [(.root, .ofBytes [1, 2, 3, 4, 5, 6])]
            writeLimits := [.unlimited, .atMost 1] } = (.ok 3, after) ∧
        (Memory.bytesAt .root after).slice 2 3 = [7, 8, 9]) ∧
      ∃ after,
        (readInto ⟨4, by decide⟩ Memory.layer .root ⟨[]⟩ 1
            [0, 0, 0, 0, 0, 0]).execute
            { files := [(.root, .ofBytes [1, 2, 3, 4, 5, 6])]
              readLimits := [.unlimited, .atMost 1] } =
          (.ok (4, [2, 3, 4, 5, 0, 0]), after) ∧
          [2, 3, 4, 5, 0, 0].take 4 = Bytes.slice [1, 2, 3, 4, 5, 6] 1 4 ∧
          Memory.bytesAt .root after = [1, 2, 3, 4, 5, 6] := by
  have counted := aligned_transfers_counted (Memory.layer_movesPrefixes .root)
    ⟨4, by decide⟩ ⟨[]⟩
  constructor
  · have ran :
        ((Memory.layer.aligned ⟨4, by decide⟩).write .root ⟨[]⟩ 2
          [7, 8, 9, 10, 11]).execute
            { files := [(.root, .ofBytes [1, 2, 3, 4, 5, 6])]
              writeLimits := [.unlimited, .atMost 1] } =
          (.ok 3,
            { files := [(.root, .ofBytes [1, 2, 7, 8, 9, 6])]
              calls := [.write 4 3, .fileSize true, .write 0 4, .read 0 4,
                .fileSize true] }) := by
      cbv
    exact ⟨_, ran, ((counted 2 _ _ 3).1 _ ran).2.1⟩
  · have ran :
        (readInto ⟨4, by decide⟩ Memory.layer .root ⟨[]⟩ 1
          [0, 0, 0, 0, 0, 0]).execute
            { files := [(.root, .ofBytes [1, 2, 3, 4, 5, 6])]
              readLimits := [.unlimited, .atMost 1] } =
          (.ok (4, [2, 3, 4, 5, 0, 0]),
            { files := [(.root, .ofBytes [1, 2, 3, 4, 5, 6])]
              calls := [.read 4 3, .fileSize true, .read 0 4] }) := by
      cbv
    rcases (counted 1 _ _ 4).2.1 _ _ ran with ⟨-, stored, -, -, same, -⟩
    exact ⟨_, ran, stored, same⟩

end Layer

end Strata
