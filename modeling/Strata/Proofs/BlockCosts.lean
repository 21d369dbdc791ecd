import Strata.Proofs.NotedCalls

/-!
# What a write spends on a block

The calls that a write makes to the layer below fall into groups, one for each
block of the written range.  A block that the range covers takes one write; any
other block takes at most a question about the size, a read and a write.  This
holds over every layer, also one that fails or moves less than it was asked
for: then the groups end with the block that was not written completely.
-/

namespace Strata

namespace BlockSize

/-- How many blocks a range touches. -/
def blocksTouched
    (size : BlockSize)
    (offset length : Nat) :
    Nat :=
  if length = 0 then
    0
  else
    (offset + length - 1) / size.bytes + 1 - offset / size.bytes

/-- What follows the first block of a range touches one block less. -/
theorem blocksTouched_step
    (size : BlockSize)
    (offset : Nat)
    {length : Nat}
    (some : 0 < length) :
    size.blocksTouched offset length =
      size.blocksTouched (offset + min (size.room offset) length)
        (length - min (size.room offset) length) + 1 := by
  have position := size.start_add_inside offset
  have inside := size.inside_lt offset
  have room : size.room offset = size.bytes - size.inside offset := rfl
  have positive := size.positive
  rw [size.start_eq] at position
  unfold blocksTouched
  rw [if_neg (by omega)]
  rcases Nat.lt_or_ge (size.room offset) length with long | short
  · have next : offset + size.room offset =
        (offset / size.bytes + 1) * size.bytes := by
      rw [Nat.add_one_mul]
      omega
    have after : (offset / size.bytes + 1) ≤
        (offset + length - 1) / size.bytes := by
      rw [Nat.le_div_iff_mul_le positive]
      omega
    rw [Nat.min_eq_left (by omega), if_neg (by omega),
      show offset + size.room offset + (length - size.room offset) - 1 =
        offset + length - 1 by omega, next, Nat.mul_div_cancel _ positive]
    omega
  · have last : (offset + length - 1) / size.bytes = offset / size.bytes := by
      apply Nat.div_eq_of_lt_le
      · omega
      · rw [Nat.add_one_mul]
        omega
    rw [if_pos (by omega), last]
    omega

end BlockSize

/-- What a write of `length` bytes from `offset` on spends on a block: one
write if the range covers the block, and otherwise at most a question about
the size, a read and a write, all of that block. -/
def SpentOnBlock
    (size : BlockSize)
    (offset length block : Nat)
    (made : List MemoryCall) :
    Prop :=
  if offset ≤ block * size.bytes ∧
      (block + 1) * size.bytes ≤ offset + length then
    made = [.write (block * size.bytes) size.bytes]
  else
    ∃ asked sent,
      List.Sublist made
        [.fileSize true, .read (block * size.bytes) asked,
          .write (block * size.bytes) sent]

/-- The calls are those that a write of `length` bytes from `offset` on spends
on the blocks of its range, one block after the other; if the write was
`complete`, on all of them. -/
def SpentByBlock
    (size : BlockSize)
    (offset length : Nat)
    (complete : Prop)
    (made : List MemoryCall) :
    Prop :=
  ∃ groups : List (List MemoryCall),
    made = groups.flatten ∧
      groups.length ≤ size.blocksTouched offset length ∧
      (complete → groups.length = size.blocksTouched offset length) ∧
      ∀ index group, groups[index]? = some group →
        SpentOnBlock size offset length (offset / size.bytes + index) group

namespace SpentByBlock

variable
  {size : BlockSize}
  {offset length : Nat}
  {complete : Prop}
  {made : List MemoryCall}

theorem nothing :
    SpentByBlock size offset 0 complete [] :=
  ⟨[], rfl, Nat.zero_le _, fun _ => rfl, by simp⟩

theorem imp
    {less : Prop}
    (spent : SpentByBlock size offset length complete made)
    (implied : less → complete) :
    SpentByBlock size offset length less made := by
  rcases spent with ⟨groups, joined, short, whole, each⟩
  exact ⟨groups, joined, short, fun done => whole (implied done), each⟩

/-- A write that stops within its first block. -/
theorem first
    (some : 0 < length)
    (spent : SpentOnBlock size offset length (offset / size.bytes) made)
    (stopped : ¬complete) :
    SpentByBlock size offset length complete made := by
  refine ⟨[made], by simp, ?_, fun whole => absurd whole stopped, ?_⟩
  · rw [size.blocksTouched_step offset some]
    exact Nat.le_add_left _ _
  · intro index group found
    cases index with
    | zero =>
        obtain rfl := Option.some.inj found
        exact spent
    | succ index => simp at found

/-- A write goes on with the block behind the first one. -/
theorem cons
    {rest : List MemoryCall}
    (some : 0 < length)
    (spent : SpentOnBlock size offset length (offset / size.bytes) made)
    (others : SpentByBlock size (offset + min (size.room offset) length)
      (length - min (size.room offset) length) complete rest) :
    SpentByBlock size offset length complete (made ++ rest) := by
  rcases others with ⟨groups, rfl, short, whole, each⟩
  have step := size.blocksTouched_step offset some
  refine ⟨made :: groups, rfl, ?_, fun done => ?_, ?_⟩
  · rw [step, List.length_cons]
    omega
  · rw [step, List.length_cons, whole done]
  · intro index group found
    cases index with
    | zero =>
        obtain rfl := Option.some.inj found
        exact spent
    | succ index =>
        rw [List.getElem?_cons_succ] at found
        have there : index < groups.length :=
          (List.getElem?_eq_some_iff.mp found).1
        have more : size.room offset < length := by
          by_contra least
          have none : length - min (size.room offset) length = 0 := by omega
          rw [none, BlockSize.blocksTouched, if_pos rfl] at short
          omega
        have position := size.start_add_inside offset
        have inside := size.inside_lt offset
        have room : size.room offset = size.bytes - size.inside offset := rfl
        have next : offset + size.room offset =
            (offset / size.bytes + 1) * size.bytes := by
          rw [size.start_eq] at position
          rw [Nat.add_one_mul]
          omega
        have spent := each index group found
        rw [Nat.min_eq_left (Nat.le_of_lt more), SpentOnBlock, next,
          Nat.mul_div_cancel _ size.positive, ← next] at spent
        have behind : offset + size.room offset ≤
            (offset / size.bytes + 1 + index) * size.bytes := by
          rw [next]
          exact Nat.mul_le_mul_right _ (Nat.le_add_right _ _)
        have block : offset / size.bytes + (index + 1) =
            offset / size.bytes + 1 + index := by omega
        rw [SpentOnBlock, block]
        have same :
            (offset + size.room offset ≤
                (offset / size.bytes + 1 + index) * size.bytes ∧
              (offset / size.bytes + 1 + index + 1) * size.bytes ≤
                offset + size.room offset + (length - size.room offset)) ↔
              offset ≤ (offset / size.bytes + 1 + index) * size.bytes ∧
                (offset / size.bytes + 1 + index + 1) * size.bytes ≤
                  offset + length := by
          omega
        rwa [if_congr same rfl rfl] at spent

end SpentByBlock

/-! ## The calls of an action -/

namespace Noted

variable {σ α β : Type}

/-- The calls that were made, the first one first. -/
def made
    (noted : Noted σ) :
    List MemoryCall :=
  noted.calls.reverse.map Prod.snd

/-- What an action adds to the calls, together with its answer. -/
def Spends
    (action : Action (Noted σ) α)
    (spent : List MemoryCall → Except Error α → Prop) :
    Prop :=
  ∀ before : Noted σ, ∃ added,
    (action.execute before).2.made = before.made ++ added ∧
      spent added (action.execute before).1

namespace Spends

theorem pure
    {value : α}
    {spent : List MemoryCall → Except Error α → Prop}
    (free : spent [] (.ok value)) :
    Spends (σ := σ) (Pure.pure value) spent :=
  fun _ => ⟨[], (List.append_nil _).symm, free⟩

theorem throw
    {error : Error}
    {spent : List MemoryCall → Except Error α → Prop}
    (free : spent [] (.error error)) :
    Spends (σ := σ) (MonadExcept.throw error) spent :=
  fun _ => ⟨[], (List.append_nil _).symm, free⟩

theorem noting
    {call : MemoryCall}
    {action : Action σ α}
    {spent : List MemoryCall → Except Error α → Prop}
    (one : ∀ answer, spent [call] answer) :
    Spends (Noted.noting call action) spent := by
  intro before
  refine ⟨[call], ?_, one _⟩
  simp [Noted.noting, made]

theorem bind
    {action : Action (Noted σ) α}
    {next : α → Action (Noted σ) β}
    {first : List MemoryCall → Except Error α → Prop}
    {second : α → List MemoryCall → Except Error β → Prop}
    {spent : List MemoryCall → Except Error β → Prop}
    (starts : Spends action first)
    (continues : ∀ value, Spends (next value) (second value))
    (stops : ∀ one error, first one (.error error) →
      spent one (.error error))
    (joins : ∀ one value two answer, first one (.ok value) →
      second value two answer → spent (one ++ two) answer) :
    Spends (action >>= next) spent := by
  intro before
  rcases starts before with ⟨one, noted, found⟩
  rw [Action.execute_bind]
  generalize action.execute before = ran at *
  rcases ran with ⟨answer, reached⟩
  cases answer with
  | error error => exact ⟨one, noted, stops one error found⟩
  | ok value =>
      rcases continues value reached with ⟨two, more, last⟩
      refine ⟨one ++ two, ?_, joins one value two _ found last⟩
      dsimp only at more noted ⊢
      rw [more, noted, List.append_assoc]

theorem imp
    {action : Action (Noted σ) α}
    {stronger spent : List MemoryCall → Except Error α → Prop}
    (spends : Spends action stronger)
    (implied : ∀ added answer, stronger added answer → spent added answer) :
    Spends action spent := by
  intro before
  rcases spends before with ⟨added, noted, found⟩
  exact ⟨added, noted, implied _ _ found⟩

/-- A call, and what is added behind it. -/
theorem noting_bind
    {call : MemoryCall}
    {action : Action σ α}
    {next : α → Action (Noted σ) β}
    {spent : List MemoryCall → Except Error β → Prop}
    (stops : ∀ error, spent [call] (.error error))
    (continues : ∀ value,
      Spends (next value) (fun added => spent (call :: added))) :
    Spends (Noted.noting call action >>= next) spent := by
  have starts : Spends (Noted.noting call action)
      (fun added _ => added = [call]) :=
    .noting fun _ => rfl
  refine starts.bind continues ?_ ?_
  · rintro _ error rfl
    exact stops error
  · rintro _ value two answer rfl found
    exact found

end Spends

end Noted

/-! ## Writing -/

namespace Layer

open Align Noted

variable
  {σ : Type}
  (size : BlockSize)
  (lower : Layer σ)
  (path : Path)
  (handle : FileHandle)

theorem writePiece_spends
    {offset length : Nat}
    {data : Bytes}
    (piece : data.length = min (size.room offset) length) :
    Spends (writePiece size lower.watched path handle offset data)
      (fun made _ =>
        SpentOnBlock size offset length (offset / size.bytes) made) := by
  have position := size.start_add_inside offset
  have inside := size.inside_lt offset
  have room : size.room offset = size.bytes - size.inside offset := rfl
  have covered :
      (offset ≤ offset / size.bytes * size.bytes ∧
          (offset / size.bytes + 1) * size.bytes ≤ offset + length) ↔
        size.inside offset = 0 ∧ data.length = size.bytes := by
    rw [Nat.add_one_mul]
    rw [size.start_eq] at position
    omega
  unfold SpentOnBlock writePiece
  dsimp only
  rw [size.start_eq]
  split
  · rename_i whole
    refine .noting fun _ => ?_
    rw [if_pos (covered.mpr whole), whole.2]
  · rename_i partly
    have partly := mt covered.mp partly
    simp only [if_neg partly]
    have direct (asked : Nat) (before : List MemoryCall)
        (fits : List.Sublist before [.fileSize true,
          .read (offset / size.bytes * size.bytes) asked]) :
        Spends
          (lower.watched.write path handle
            (offset / size.bytes * size.bytes) data)
          (fun made _ => ∃ asked sent,
            List.Sublist (before ++ made)
              [.fileSize true, .read (offset / size.bytes * size.bytes) asked,
                .write (offset / size.bytes * size.bytes) sent]) :=
      .noting fun _ => ⟨asked, data.length, fits.append_right _⟩
    refine .noting_bind (fun _ => ⟨0, 0, by simp⟩) fun stored => ?_
    split
    · split
      · exact .throw ⟨0, 0, by simp⟩
      · exact direct 0 [.fileSize true] (by simp)
    · split
      · exact direct 0 [.fileSize true] (by simp)
      · refine .noting_bind
          (fun _ => ⟨_, 0, List.sublist_append_left [_, _] [_]⟩)
          fun present => ?_
        refine .noting_bind (fun _ => ⟨_, _, .refl _⟩) fun taken => ?_
        split <;> exact .pure ⟨_, _, .refl _⟩

/-- A write spends on each block of its range what that block takes; if it
writes all of its bytes, it has done so for every block. -/
theorem writeFrom_spends
    (offset : Nat)
    (data : Bytes)
    (done : Nat) :
    Spends (writeFrom size lower.watched path handle offset data done)
      (fun made answer =>
        SpentByBlock size offset data.length
          (answer = .ok (done + data.length)) made) := by
  induction offset, data, done using writeFrom.induct size with
  | case1 offset done =>
      rw [writeFrom, dif_pos rfl]
      exact .pure .nothing
  | case2 offset data done nonempty piece ih =>
      have some := List.length_pos_iff.mpr nonempty
      have first : data.take (size.room offset) = piece := rfl
      have pieceLength : piece.length = min (size.room offset) data.length :=
        List.length_take
      clear_value piece
      rw [writeFrom, dif_neg nonempty, first]
      have starts := writePiece_spends size lower path handle pieceLength
      have all : done + piece.length + (data.drop piece.length).length =
          done + data.length := by
        rw [List.length_drop]
        omega
      have continues (written : Nat) :
          Spends
            (if written < piece.length then
              pure (done + written)
            else
              writeFrom size lower.watched path handle (offset + piece.length)
                (data.drop piece.length) (done + piece.length))
            (fun made answer =>
              made = [] ∧ answer = .ok (done + written) ∧
                  written < piece.length ∨
                SpentByBlock size (offset + piece.length)
                  (data.length - piece.length)
                  (answer = .ok (done + data.length)) made) := by
        split
        · rename_i short
          exact .pure (.inl ⟨rfl, rfl, short⟩)
        · refine (ih written).imp fun made answer spent => .inr ?_
          rwa [all, List.length_drop] at spent
      refine starts.bind continues ?_ ?_
      · intro one error spent
        exact .first some spent (by simp)
      · rintro one written two answer spent (⟨rfl, rfl, short⟩ | others)
        · rw [List.append_nil]
          refine .first some spent fun same => ?_
          have := Except.ok.inj same
          omega
        · rw [pieceLength] at others
          exact .cons some spent others

/-- The same of a write that is made of the stage. -/
theorem aligned_write_spends
    (offset : Nat)
    (data : Bytes) :
    Spends
      ((lower.watched.aligned size).perform path (.write handle offset data))
      (fun made answer =>
        SpentByBlock size offset data.length
          (answer = .ok (.written data.length)) made) := by
  have answers (count : Nat) :
      Spends (σ := σ) (pure (FileAnswer.written count))
        (fun made answer => made = [] ∧ answer = .ok (.written count)) :=
    .pure ⟨rfl, rfl⟩
  refine (writeFrom_spends size lower path handle offset data 0).bind
    answers ?_ ?_
  · intro made error spent
    exact spent.imp (by simp)
  · rintro made count _ answer spent ⟨rfl, rfl⟩
    rw [List.append_nil]
    refine spent.imp fun whole => ?_
    cases whole
    rw [Nat.zero_add]

end Layer

end Strata
