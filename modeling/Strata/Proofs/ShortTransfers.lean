import Mathlib
import Strata.Layer.Align
import Strata.Layer.Memory
import Strata.Proofs.Execution
import Strata.Proofs.FlatFile
import Strata.Proofs.Ranges

/-!
# Short transfers below the aligning stage

A layer may move fewer bytes than it was asked for.  Changing part of a block
means reading the block first, and what a short read does not deliver in front
of the written range is taken for zeros when the block is written back.

The main result says when a write leaves all bytes outside the written range
alone, over any layer that moves some prefix of every transfer: exactly when
the write back does not reach a byte, other than zero, that the read before it
did not deliver.
-/

namespace Strata

/-! ## Bytes outside a range -/

/-- Outside a range of a string that did not get shorter every byte is what it
was. -/
structure Bytes.SameOutside
    (offset count : Nat)
    (old new : Bytes) :
    Prop where
  length : old.length ≤ new.length
  same : ∀ position, position < old.length →
    position < offset ∨ offset + count ≤ position →
      new[position]? = old[position]?

namespace Bytes.SameOutside

theorem refl
    (offset count : Nat)
    (bytes : Bytes) :
    SameOutside offset count bytes bytes :=
  ⟨Nat.le_refl _, fun _ _ _ => rfl⟩

theorem splice
    (bytes : Bytes)
    (offset count : Nat)
    {data : Bytes}
    (covered : data.length ≤ count) :
    SameOutside offset count bytes (bytes.splice offset data) := by
  constructor
  · rw [length_splice]
    split <;> omega
  · intro position there outside
    grind

/-- Two ranges, the second one where the first one ended, are one range. -/
theorem append
    {offset first second : Nat}
    {old middle new : Bytes}
    (one : SameOutside offset first old middle)
    (two : SameOutside (offset + first) second middle new) :
    SameOutside offset (first + second) old new := by
  refine ⟨Nat.le_trans one.length two.length, ?_⟩
  intro position there outside
  have := one.length
  rw [two.same position (by omega) (by omega),
    one.same position there (by omega)]

end Bytes.SameOutside

/-! ## Layers that may cut their transfers short -/

namespace Layer

variable {σ : Type}

/--
Every transfer moves some prefix of what was asked for: a read delivers a
prefix of the bytes that exist in its range, and a write takes a prefix of the
bytes it is given.  Sizes are exact, and a request that fails may do anything.
-/
structure MovesPrefixes
    (layer : Layer σ)
    (path : Path)
    (contents : σ → Bytes) :
    Prop where
  fileSize : ∀ handle before size after,
    (layer.fileSize path handle).execute before = (.ok size, after) →
      contents after = contents before ∧ size = (contents before).length
  read : ∀ handle offset length before found after,
    (layer.read path handle offset length).execute before =
        (.ok found, after) →
      contents after = contents before ∧
        found <+: (contents before).slice offset length
  write : ∀ handle offset data before count after,
    (layer.write path handle offset data).execute before =
        (.ok count, after) →
      count ≤ data.length ∧
        contents after = (contents before).splice offset (data.take count)

end Layer

/-! ## Files in memory with limits -/

namespace Memory

/-- The bytes of the file at a path. -/
def bytesAt
    (path : Path)
    (memory : Memory) :
    Bytes :=
  ((memory.contents? path).map (·.toBytes)).getD []

theorem allowed_le
    {count moved : Nat}
    {limit : Limit}
    (allows : allowed count limit = .ok moved) :
    moved ≤ count := by
  cases limit with
  | unlimited => exact Nat.le_of_eq (Except.ok.inj allows).symm
  | atMost most =>
      rw [← Except.ok.inj allows]
      exact Nat.min_le_left _ _
  | failing number => simp [allowed] at allows

theorem onFile_ok
    {α : Type}
    {path : Path}
    {call : MemoryCall}
    {answer : Memory → Contents → Except Error α × Memory}
    {memory after : Memory}
    {value : α}
    (ran : (onFile call path answer).execute memory = (.ok value, after)) :
    ∃ contents,
      memory.contents? path = some contents ∧
        answer (memory.note call) contents = (.ok value, after) := by
  have noted : (memory.note call).contents? path = memory.contents? path := rfl
  simp only [onFile, Action.execute_ofRun, noted] at ran
  cases found : memory.contents? path with
  | none => simp [found] at ran
  | some contents => exact ⟨contents, rfl, by simpa [found] using ran⟩

/-- Whatever the limits are, a transfer moves a prefix of what was asked
for. -/
theorem layer_movesPrefixes
    (path : Path) :
    Layer.MovesPrefixes layer path (bytesAt path) := by
  constructor
  all_goals dsimp only [layer]
  case fileSize =>
    intro handle before size after ran
    rcases onFile_ok ran with ⟨contents, found, answered⟩
    rcases Prod.mk.inj answered with ⟨same, rfl⟩
    have noted : (before.note (.fileSize handle.isSome)).contents? path =
        some contents := found
    simp [bytesAt, noted, found, ← Except.ok.inj same]
  case read =>
    intro handle offset length before bytes after ran
    rcases onFile_ok ran with ⟨contents, found, answered⟩
    rcases Prod.mk.inj answered with ⟨delivered, rfl⟩
    have noted : bytesAt path (before.note (.read offset length)) =
        bytesAt path before := rfl
    have held : bytesAt path before = contents.toBytes := by
      simp [bytesAt, found]
    refine ⟨noted, ?_⟩
    rw [held, ← contents.read_eq_slice]
    generalize allowed (contents.read offset length).length _ = moved
      at delivered
    cases moved with
    | error error => simp [Except.map] at delivered
    | ok count =>
        obtain rfl := Except.ok.inj delivered
        exact List.take_prefix _ _
  case write =>
    intro handle offset data before count after ran
    rcases onFile_ok ran with ⟨contents, found, answered⟩
    have held : bytesAt path before = contents.toBytes := by
      simp [bytesAt, found]
    dsimp only at answered
    split at answered
    · simp at answered
    · rename_i taken moved
      rcases Prod.mk.inj answered with ⟨same, rfl⟩
      obtain rfl := Except.ok.inj same
      refine ⟨allowed_le moved, ?_⟩
      rw [bytesAt, contents?_change, held]
      change (Option.map _ (Option.map _ (before.contents? path))).getD [] = _
      rw [found]
      exact contents.toBytes_write offset (data.take taken)

end Memory

namespace Layer

open Align

variable {σ : Type}

/-! ## Padding -/

/--
The write back of the first block zeroes a byte that it was not asked to
write: the block was read short of the written range, and the write back went
past what was read, over a byte other than zero.
-/
def PadsOver
    (size : BlockSize)
    (layer : Layer σ)
    (path : Path)
    (contents : σ → Bytes)
    (handle : FileHandle)
    (offset : Nat)
    (data : Bytes)
    (before : σ) :
    Prop :=
  ∃ stored sized present read taken written position,
    (layer.fileSize path (some handle)).execute before =
        (.ok stored, sized) ∧
      (layer.read path handle (size.start offset)
        (min (stored - size.start offset) size.bytes)).execute sized =
          (.ok present, read) ∧
      (layer.write path handle (size.start offset)
        (Bytes.splice present (size.inside offset)
          (data.take (size.room offset)))).execute read =
            (.ok taken, written) ∧
      size.start offset + present.length ≤ position ∧
      position < offset ∧
      position < size.start offset + taken ∧
      ∃ byte, (contents before)[position]? = some byte ∧ byte ≠ 0

variable
  {lower : Layer σ}
  {path : Path}
  {size : BlockSize}
  {contents : σ → Bytes}

/-! ## Blocks -/

/-- What is at each old position outside the written range when a part of a
block is written back. -/
theorem getElem?_rewritten
    (old : Bytes)
    {block inside length taken : Nat}
    {present data : Bytes}
    (delivered : present <+: old.slice block length)
    (nonempty : data ≠ [])
    {position : Nat}
    (there : position < old.length)
    (outside : position < block + inside ∨
      block + inside +
        (if taken < (Bytes.splice present inside data).length then
          min (taken - inside) data.length
        else data.length) ≤ position) :
    (old.splice block ((present.splice inside data).take taken))[position]? =
      if block + present.length ≤ position ∧ position < block + inside ∧
          position < block + taken then
        some 0
      else
        old[position]? := by
  have known : ∀ index, index < present.length →
      present[index]? = old[block + index]? := by
    intro index short
    have asked : index < length := by
      have := delivered.length_le
      rw [Bytes.length_slice] at this
      omega
    have there := List.prefix_iff_getElem?.mp delivered index short
    rw [List.getElem?_eq_getElem short, ← there, Bytes.getElem?_slice,
      if_pos asked]
  have changed := Bytes.length_splice present inside data
  rw [if_neg nonempty] at changed
  by_cases before : position < block
  · grind
  · rcases Nat.exists_eq_add_of_le (Nat.le_of_not_lt before) with ⟨rest, rfl⟩
    have back : block + rest - block = rest := Nat.add_sub_cancel_left _ _
    rw [Bytes.getElem?_splice, List.length_take, List.getElem?_take,
      Bytes.getElem?_splice, if_neg nonempty, back]
    have nothing :
        (present.splice inside data).take taken = [] ↔ taken = 0 := by
      simp [List.take_eq_nil_iff, Bytes.splice_eq_nil_iff, nonempty]
    have delivered := known rest
    have existing : old[block + rest]? ≠ none := by
      simpa using there
    have shorter : present.length ≤ rest → present[rest]? = none :=
      List.getElem?_eq_none
    clear known
    simp only [nothing, changed] at outside ⊢
    split at outside <;> grind

/-- What writing back a part of a block has read and written when it succeeds,
and how many bytes of the part it counts. -/
theorem rewriteBlock_eq_ok
    {handle : FileHandle}
    {block inside stored written : Nat}
    {data : Bytes}
    {before after : σ}
    (ran : (rewriteBlock size lower path handle block inside stored
      data).execute before = (.ok written, after)) :
    ∃ present read taken,
      (lower.read path handle block (min stored size.bytes)).execute before =
          (.ok present, read) ∧
        (lower.write path handle block
          (Bytes.splice present inside data)).execute read =
            (.ok taken, after) ∧
        written =
          if taken < (Bytes.splice present inside data).length then
            min (taken - inside) data.length
          else data.length := by
  rcases Action.execute_bind_eq_ok ran with ⟨present, read, delivered, rest⟩
  rcases Action.execute_bind_eq_ok rest with ⟨taken, reached, wrote, answered⟩
  refine ⟨present, read, taken, delivered, ?_⟩
  split at answered <;> rename_i short
  · rcases Action.execute_pure_eq_ok answered with ⟨rfl, rfl⟩
    exact ⟨wrote, (if_pos short).symm⟩
  · rcases Action.execute_pure_eq_ok answered with ⟨rfl, rfl⟩
    exact ⟨wrote, (if_neg short).symm⟩

/-- Writing back a part of a block changes nothing outside the part, but for
zeros where the read before it was short. -/
theorem rewriteBlock_changes
    (moves : MovesPrefixes lower path contents)
    {handle : FileHandle}
    {block inside stored written : Nat}
    {data : Bytes}
    {before after : σ}
    (nonempty : data ≠ [])
    (ran : (rewriteBlock size lower path handle block inside stored
      data).execute before = (.ok written, after)) :
    ∃ present read taken,
      (lower.read path handle block (min stored size.bytes)).execute before =
          (.ok present, read) ∧
        (lower.write path handle block
          (Bytes.splice present inside data)).execute read =
            (.ok taken, after) ∧
        written ≤ data.length ∧
        (contents before).length ≤ (contents after).length ∧
        ∀ position, position < (contents before).length →
          position < block + inside ∨ block + inside + written ≤ position →
            (contents after)[position]? =
              if block + present.length ≤ position ∧
                  position < block + inside ∧ position < block + taken then
                some 0
              else
                (contents before)[position]? := by
  rcases rewriteBlock_eq_ok ran with
    ⟨present, read, taken, delivered, wrote, counted⟩
  rcases moves.read _ _ _ _ _ _ delivered with ⟨same, found⟩
  rcases moves.write _ _ _ _ _ _ wrote with ⟨-, changed⟩
  rw [same] at changed
  refine ⟨present, read, taken, delivered, wrote, ?_, ?_, ?_⟩
  · rw [counted]
    split <;> omega
  · rw [changed, Bytes.length_splice]
    split <;> omega
  · intro position there outside
    rw [changed]
    exact getElem?_rewritten (contents before) found nonempty there
      (counted ▸ outside)

/-- A piece is either written as it is, at the start of its block, or put into
the stored block; before that only the size may have been asked for. -/
theorem writePiece_cases
    {handle : FileHandle}
    {offset written : Nat}
    {data : Bytes}
    {before after : σ}
    (ran : (writePiece size lower path handle offset data).execute before =
      (.ok written, after)) :
    ∃ reached,
      (reached = before ∨
        ∃ stored, (lower.fileSize path (some handle)).execute before =
          (.ok stored, reached)) ∧
        (size.inside offset = 0 ∧
            (lower.write path handle offset data).execute reached =
              (.ok written, after) ∨
          ∃ stored,
            (rewriteBlock size lower path handle (size.start offset)
              (size.inside offset) stored data).execute reached =
                (.ok written, after)) := by
  have position := size.start_add_inside offset
  have start (even : size.inside offset = 0) : size.start offset = offset := by
    omega
  unfold writePiece at ran
  dsimp only at ran
  split at ran
  · rename_i covered
    rw [start covered.1] at ran
    exact ⟨before, .inl rfl, .inl ⟨covered.1, ran⟩⟩
  · rcases Action.execute_bind_eq_ok ran with ⟨stored, sized, asked, rest⟩
    refine ⟨sized, .inr ⟨stored, asked⟩, ?_⟩
    split at rest
    · split at rest
      · simp at rest
      · rename_i atEnd
        have even : size.inside offset = 0 := by omega
        rw [start even] at rest
        exact .inl ⟨even, rest⟩
    · split at rest
      · rename_i last
        rw [start last.1] at rest
        exact .inl ⟨last.1, rest⟩
      · exact .inr ⟨_, rest⟩

/-- A piece that starts with its block leaves the rest alone, however much of
it is moved. -/
theorem writePiece_even
    (moves : MovesPrefixes lower path contents)
    {handle : FileHandle}
    {offset written : Nat}
    {data : Bytes}
    {before after : σ}
    (even : size.inside offset = 0)
    (nonempty : data ≠ [])
    (ran : (writePiece size lower path handle offset data).execute before =
      (.ok written, after)) :
    written ≤ data.length ∧
      Bytes.SameOutside offset written (contents before) (contents after) := by
  have position := size.start_add_inside offset
  rcases writePiece_cases ran with ⟨reached, asked, wrote⟩
  have same : contents reached = contents before := by
    rcases asked with rfl | ⟨stored, sized⟩
    · rfl
    · exact (moves.fileSize _ _ _ _ sized).1
  rcases wrote with ⟨-, wrote⟩ | ⟨stored, rewrote⟩
  · rcases moves.write _ _ _ _ _ _ wrote with ⟨bound, changed⟩
    rw [changed, same]
    exact ⟨bound, .splice _ _ _ (List.length_take_le _ _)⟩
  · rcases rewriteBlock_changes moves nonempty rewrote with
      ⟨present, read, taken, -, -, bound, longer, changes⟩
    rw [even, Nat.add_zero, same] at changes
    rw [same] at longer
    refine ⟨bound, longer, fun place there outside => ?_⟩
    rw [changes place there (by omega), if_neg (by omega)]

/-- What follows the first piece of some data starts with a block. -/
theorem next_piece_even
    (size : BlockSize)
    (offset : Nat)
    (data : Bytes) :
    data.drop (data.take (size.room offset)).length = [] ∨
      size.inside (offset + (data.take (size.room offset)).length) = 0 := by
  rw [List.length_take]
  rcases Nat.le_total data.length (size.room offset) with short | long
  · exact .inl (List.drop_eq_nil_of_le (by omega))
  · right
    have inside := size.inside_lt offset
    have start := size.start_add_inside offset
    have room : size.room offset = size.bytes - size.inside offset := rfl
    have next : offset + size.room offset =
        (offset / size.bytes + 1) * size.bytes := by
      rw [Nat.succ_mul, ← size.start_eq]
      omega
    rw [Nat.min_eq_left long, next]
    exact Nat.mul_mod_left _ _

/-- A write that starts with a block leaves the rest alone. -/
theorem writeFrom_even
    (moves : MovesPrefixes lower path contents)
    {handle : FileHandle}
    (offset : Nat)
    (data : Bytes)
    (done : Nat)
    {count : Nat}
    {before after : σ}
    (even : data = [] ∨ size.inside offset = 0)
    (ran : (writeFrom size lower path handle offset data done).execute before =
      (.ok count, after)) :
    done ≤ count ∧
      Bytes.SameOutside offset (count - done) (contents before)
        (contents after) := by
  induction offset, data, done using writeFrom.induct size
    generalizing before with
  | case1 offset done =>
      rw [writeFrom, dif_pos rfl] at ran
      rcases Action.execute_pure_eq_ok ran with ⟨rfl, rfl⟩
      exact ⟨Nat.le_refl _, .refl _ _ _⟩
  | case2 offset data done nonempty piece =>
      rename_i ih
      have first : data.take (size.room offset) = piece := rfl
      have pieceLength : piece.length = min (size.room offset) data.length :=
        List.length_take
      clear_value piece
      have room := size.room_pos offset
      have some := List.length_pos_iff.mpr nonempty
      have pieceNonempty : piece ≠ [] :=
        List.ne_nil_of_length_pos (by omega)
      have inside := even.resolve_left nonempty
      rw [writeFrom, dif_neg nonempty, first] at ran
      rcases Action.execute_bind_eq_ok ran with ⟨written, middle, wrote, rest⟩
      rcases writePiece_even moves inside pieceNonempty wrote with ⟨bound, one⟩
      split at rest
      · rcases Action.execute_pure_eq_ok rest with ⟨rfl, rfl⟩
        refine ⟨Nat.le_add_right _ _, ?_⟩
        rwa [Nat.add_sub_cancel_left]
      · obtain rfl : written = piece.length := by omega
        have next : data.drop piece.length = [] ∨
            size.inside (offset + piece.length) = 0 :=
          first ▸ next_piece_even size offset data
        rcases ih 0 next rest with ⟨more, two⟩
        refine ⟨by omega, ?_⟩
        have both := one.append two
        rwa [← Nat.sub_sub, Nat.add_sub_cancel' (by omega)] at both

/-- A piece that starts inside its block is put into the stored block, which
is read and written back. -/
theorem writePiece_inside
    {handle : FileHandle}
    {offset written : Nat}
    {data : Bytes}
    {before after : σ}
    (inside : 0 < size.inside offset)
    (ran : (writePiece size lower path handle offset data).execute before =
      (.ok written, after)) :
    ∃ stored sized,
      (lower.fileSize path (some handle)).execute before =
          (.ok stored, sized) ∧
        (rewriteBlock size lower path handle (size.start offset)
          (size.inside offset) (stored - size.start offset) data).execute
            sized = (.ok written, after) := by
  unfold writePiece at ran
  dsimp only at ran
  rw [if_neg (fun covered => absurd covered.1 (Nat.ne_of_gt inside))] at ran
  rcases Action.execute_bind_eq_ok ran with ⟨stored, sized, asked, rest⟩
  refine ⟨stored, sized, asked, ?_⟩
  split at rest
  · rw [if_pos (.inr inside)] at rest
    simp at rest
  · rwa [if_neg (fun covered => absurd covered.1 (Nat.ne_of_gt inside))]
      at rest

theorem writePiece_bounded
    (moves : MovesPrefixes lower path contents)
    {handle : FileHandle}
    {offset written : Nat}
    {data : Bytes}
    {before after : σ}
    (nonempty : data ≠ [])
    (ran : (writePiece size lower path handle offset data).execute before =
      (.ok written, after)) :
    written ≤ data.length := by
  rcases writePiece_cases ran with
    ⟨reached, -, ⟨-, wrote⟩ | ⟨stored, rewrote⟩⟩
  · exact (moves.write _ _ _ _ _ _ wrote).1
  · rcases rewriteBlock_changes moves nonempty rewrote with
      ⟨_, _, _, -, -, bound, -, -⟩
    exact bound

/-- A write of some bytes is the write of its first piece and, if that is
taken completely, a write that starts with a block. -/
theorem writeFrom_first
    (moves : MovesPrefixes lower path contents)
    {handle : FileHandle}
    {offset count : Nat}
    {data : Bytes}
    {before after : σ}
    (nonempty : data ≠ [])
    (ran : (writeFrom size lower path handle offset data 0).execute before =
      (.ok count, after)) :
    ∃ written middle,
      (writePiece size lower path handle offset
        (data.take (size.room offset))).execute before =
          (.ok written, middle) ∧
        written ≤ count ∧
        Bytes.SameOutside (offset + written) (count - written)
          (contents middle) (contents after) := by
  rw [writeFrom, dif_neg nonempty] at ran
  rcases Action.execute_bind_eq_ok ran with ⟨written, middle, wrote, rest⟩
  have bound := writePiece_bounded moves (by
    simpa [List.take_eq_nil_iff, nonempty] using
      Nat.ne_of_gt (size.room_pos offset)) wrote
  refine ⟨written, middle, wrote, ?_⟩
  split at rest
  · rcases Action.execute_pure_eq_ok rest with ⟨rfl, rfl⟩
    rw [Nat.zero_add]
    exact ⟨Nat.le_refl _, .refl _ _ _⟩
  · obtain rfl : written = (data.take (size.room offset)).length := by omega
    have others := writeFrom_even moves _ _ _ (next_piece_even size offset data)
      rest
    rwa [Nat.zero_add] at others

/--
A write over a layer that moves prefixes leaves every old byte outside the
written range alone if and only if its first block is not padded over a byte
other than zero.
-/
theorem aligned_write_same_outside_iff
    (moves : MovesPrefixes lower path contents)
    {handle : FileHandle}
    {offset count : Nat}
    {data : Bytes}
    {before after : σ}
    (ran : ((lower.aligned size).write path handle offset data).execute
      before = (.ok count, after)) :
    Bytes.SameOutside offset count (contents before) (contents after) ↔
      ¬PadsOver size lower path contents handle offset data before := by
  have offsetParts := size.start_add_inside offset
  by_cases nonempty : data = []
  · have same := (writeFrom_even moves offset data 0 (.inl nonempty) ran).2
    refine ⟨fun _ => ?_, fun _ => same⟩
    rintro ⟨_, _, present, _, taken, _, place, _, _, wrote, _, _, _, _⟩
    rcases moves.write _ _ _ _ _ _ wrote with ⟨bound, -⟩
    rw [nonempty, List.take_nil, Bytes.splice_nil] at bound
    omega
  · rcases Nat.eq_zero_or_pos (size.inside offset) with even | inside
    · have same := (writeFrom_even moves offset data 0 (.inr even) ran).2
      refine ⟨fun _ => ?_, fun _ => same⟩
      rintro ⟨_, _, _, _, _, _, place, _, _, _, _, _, _, _⟩
      omega
    · have pieceNonempty : data.take (size.room offset) ≠ [] := by
        simpa [List.take_eq_nil_iff, nonempty] using
          Nat.ne_of_gt (size.room_pos offset)
      rcases writeFrom_first moves nonempty ran with
        ⟨written, middle, wrote, more, others⟩
      rcases writePiece_inside inside wrote with
        ⟨stored, sized, asked, rewritten⟩
      rcases moves.fileSize _ _ _ _ asked with ⟨kept, storedLength⟩
      rcases rewriteBlock_changes moves pieceNonempty rewritten with
        ⟨present, read, taken, delivered, written', bound, longer, changes⟩
      rw [offsetParts, kept] at changes
      rw [kept] at longer
      -- Outside the written range only the first block was changed.
      have final : ∀ place, place < (contents before).length →
          place < offset ∨ offset + count ≤ place →
            (contents after)[place]? =
              if size.start offset + present.length ≤ place ∧
                  place < offset ∧ place < size.start offset + taken then
                some 0
              else
                (contents before)[place]? := by
        intro place there outside
        rw [others.same place (by omega) (by omega)]
        exact changes place there (by omega)
      constructor
      · rintro same ⟨_, _, _, _, _, _, place, sized', delivered', taken',
          behind, below, reached, byte, found, nonzero⟩
        cases asked.symm.trans sized'
        cases delivered.symm.trans delivered'
        cases written'.symm.trans taken'
        have there := (List.getElem?_eq_some_iff.mp found).1
        have zero := final place there (.inl below)
        rw [same.same place there (.inl below),
          if_pos ⟨behind, below, reached⟩, found] at zero
        exact nonzero (Option.some.inj zero)
      · intro spared
        refine ⟨Nat.le_trans longer others.length, ?_⟩
        intro place there outside
        rw [final place there outside]
        split
        · rename_i padded
          rcases padded with ⟨behind, below, reached⟩
          by_contra differs
          refine spared ⟨stored, sized, present, _, taken, _, place, asked,
            delivered, written', behind, below, reached,
            (contents before)[place], List.getElem?_eq_getElem there, ?_⟩
          intro zero
          rw [List.getElem?_eq_getElem there, zero] at differs
          exact differs rfl
        · rfl

/-- A write behind the bytes of a block that a short read delivered. -/
theorem aligned_write_same_outside_iff_of_limit :
    ∃ after,
      ((Memory.layer.aligned ⟨4, by decide⟩).write .root ⟨[]⟩ 2 [9]).execute
          { files := [(.root, .ofBytes [1, 0, 3, 4, 5])]
            readLimits := [.atMost 1] } = (.ok 1, after) ∧
        (Bytes.SameOutside 2 1 [1, 0, 3, 4, 5] (Memory.bytesAt .root after) ↔
          ¬PadsOver ⟨4, by decide⟩ Memory.layer .root (Memory.bytesAt .root)
            ⟨[]⟩ 2 [9]
            { files := [(.root, .ofBytes [1, 0, 3, 4, 5])]
              readLimits := [.atMost 1] }) := by
  have ran :
      ((Memory.layer.aligned ⟨4, by decide⟩).write .root ⟨[]⟩ 2 [9]).execute
          { files := [(.root, .ofBytes [1, 0, 3, 4, 5])]
            readLimits := [.atMost 1] } =
        (.ok 1,
          { files := [(.root, .ofBytes [1, 0, 9, 4, 5])]
            calls := [.write 0 3, .read 0 4, .fileSize true] }) := by
    cbv
  exact ⟨_, ran,
    aligned_write_same_outside_iff (Memory.layer_movesPrefixes .root) ran⟩

/-- Two bytes in front of the written one are zeroed when the read before the
write back delivers nothing. -/
theorem aligned_write_zeroes :
    ∃ after,
      ((Memory.layer.aligned ⟨4, by decide⟩).write .root ⟨[]⟩ 2 [9]).execute
          { files := [(.root, .ofBytes [1, 2, 3, 4])]
            readLimits := [.atMost 0] } = (.ok 1, after) ∧
        ¬Bytes.SameOutside 2 1 [1, 2, 3, 4] (Memory.bytesAt .root after) := by
  refine ⟨_, by cbv, ?_⟩
  intro kept
  have first := kept.same 0 (by decide) (.inl (by decide))
  exact absurd first (by decide)

end Layer

end Strata
