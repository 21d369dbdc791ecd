import Mathlib.Algebra.Ring.Nat
import Strata.Coding.Extents
import Strata.Proofs.Tables

/-!
# Layouts of fragment files

When blocks are written one behind the other, their fragments lie one behind
the other too, and the extents of a file are the layout of the lengths of its
blocks.  The layout stays right while blocks are appended, rewritten and cut
off at the end; a cut inside a block leaves an extent that is too long, until
the rest of that block is written in its place.

The table of next starts keeps entries that no block ends at any more.  They
lie inside of blocks, where no block is ever started, so nothing is said about
them here.
-/

namespace Strata.FileExtents

variable
  (width : Nat → Nat)
  {lengths front behind : List Nat}
  {old new : Nat}
  {extents : FileExtents}

/-- The bytes that the fragments of blocks take up in each fragment file. -/
def reach
    (lengths : List Nat) :
    Nat :=
  (lengths.map width).sum

@[simp]
theorem reach_nil :
    reach width [] = 0 :=
  rfl

@[simp]
theorem reach_append
    (first second : List Nat) :
    reach width (first ++ second) =
      reach width first + reach width second := by
  simp [reach]

@[simp]
theorem reach_cons
    (length : Nat)
    (rest : List Nat) :
    reach width (length :: rest) = width length + reach width rest := by
  simp [reach]

/-- The extents of blocks of the given lengths that lie one behind the other,
by the offsets of the blocks. -/
def layout :
    (offset start : Nat) → List Nat → Table Nat Extent
  | _, _, [] => []
  | offset, start, length :: rest =>
    (offset, ⟨start, width length, length⟩) ::
      layout (offset + length) (start + width length) rest

theorem layout_append
    (offset start : Nat)
    (first second : List Nat) :
    layout width offset start (first ++ second) =
      layout width offset start first ++
        layout width (offset + first.sum) (start + reach width first)
          second := by
  induction first generalizing offset start with
  | nil => simp [layout]
  | cons length rest ih =>
      simp [layout, ih, Nat.add_assoc]

/-- The extents of a layout are those of its blocks, each behind the fragments
of the blocks before it. -/
theorem mem_layout_iff
    {offset start key : Nat}
    {extent : Extent} :
    (key, extent) ∈ layout width offset start lengths ↔
      ∃ front old behind, lengths = front ++ old :: behind ∧
        key = offset + front.sum ∧
          extent = ⟨start + reach width front, width old, old⟩ := by
  induction lengths generalizing offset start with
  | nil => simp [layout]
  | cons length rest ih =>
      rw [layout, List.mem_cons, ih]
      constructor
      · rintro (same | ⟨front, old, behind, rfl, rfl, rfl⟩)
        · cases same
          exact ⟨[], length, rest, rfl, rfl, rfl⟩
        · exact ⟨length :: front, old, behind, rfl,
            by rw [List.sum_cons, Nat.add_assoc],
            by rw [reach_cons, Nat.add_assoc]⟩
      · rintro ⟨front, old, behind, split, rfl, rfl⟩
        cases front with
        | nil =>
            cases split
            exact .inl rfl
        | cons first others =>
            cases split
            exact .inr ⟨others, old, behind, rfl,
              by rw [List.sum_cons, Nat.add_assoc],
              by rw [reach_cons, Nat.add_assoc]⟩

/-- An extent of a layout belongs to a block inside of it. -/
theorem bounds_of_find?_layout
    {offset start key : Nat}
    {extent : Extent}
    (positive : ∀ length ∈ lengths, 0 < length)
    (found : (layout width offset start lengths).find? key = some extent) :
    offset ≤ key ∧ key < offset + lengths.sum ∧ start ≤ extent.start := by
  rcases (mem_layout_iff width).mp (Table.mem_of_find? found) with
    ⟨front, old, behind, rfl, rfl, rfl⟩
  have long : 0 < old := positive old (by simp)
  refine ⟨Nat.le_add_right _ _, ?_, Nat.le_add_right _ _⟩
  rw [List.sum_append, List.sum_cons]
  omega

theorem find?_layout_of_le
    {key : Nat}
    (positive : ∀ length ∈ front, 0 < length)
    (past : front.sum ≤ key) :
    (layout width 0 0 front).find? key = none := by
  rw [Option.eq_none_iff_forall_ne_some]
  intro extent found
  have inside := bounds_of_find?_layout width positive found
  omega

/-- A layout as it is before an offset is the layout of the blocks that start
before it. -/
theorem find?_layout_before
    {size : Nat}
    (positive : ∀ length ∈ front ++ behind, 0 < length)
    (whole : behind ≠ [] → size ≤ front.sum)
    (passed : ∀ key, size ≤ key →
      (layout width 0 0 front).find? key = none)
    (key : Nat) :
    (if key < size then
        (layout width 0 0 (front ++ behind)).find? key
      else
        none) =
      (layout width 0 0 front).find? key := by
  split
  · rename_i before
    rw [layout_append, Table.find?_append]
    have later :
        (layout width (0 + front.sum) (0 + reach width front)
          behind).find? key = none := by
      rw [Option.eq_none_iff_forall_ne_some]
      intro extent found
      have inside := bounds_of_find?_layout width
        (fun length member =>
          positive length (List.mem_append_right _ member)) found
      have there : behind ≠ [] := by
        intro empty
        rw [empty] at found
        cases found
      have := whole there
      omega
    rw [later, Option.or_none]
  · rename_i past
    exact (passed key (Nat.le_of_not_lt past)).symm

theorem sum_le_of_prefix
    {part : List Nat}
    (before : part <+: lengths) :
    part.sum ≤ lengths.sum := by
  rcases before with ⟨rest, rfl⟩
  rw [List.sum_append]
  exact Nat.le_add_right _ _

/-! ## Extents of a whole file -/

/-- The extents are those of blocks of the given lengths. -/
structure Lays
    (lengths : List Nat)
    (extents : FileExtents) :
    Prop where
  positive : ∀ length ∈ lengths, 0 < length
  unique : extents.blocks.Unique
  blocks : ∀ key,
    extents.blocks.find? key = (layout width 0 0 lengths).find? key
  ends : ∀ part, part <+: lengths → part ≠ [] →
    extents.nextStarts.find? part.sum = some (reach width part)
  size : extents.size = lengths.sum

/-- The extents are those of blocks of the given lengths, except that there
may be one for a block behind them; in any case it is known where the
fragments of that block go. -/
structure Continues
    (lengths : List Nat)
    (extents : FileExtents) :
    Prop where
  positive : ∀ length ∈ lengths, 0 < length
  unique : extents.blocks.Unique
  blocks : ∀ key, key ≠ lengths.sum →
    extents.blocks.find? key = (layout width 0 0 lengths).find? key
  ends : ∀ part, part <+: lengths → part ≠ [] →
    extents.nextStarts.find? part.sum = some (reach width part)
  starts : extents.startFor? lengths.sum = some (reach width lengths)

variable {width}

theorem eq_nil_of_sum_eq_zero
    (positive : ∀ length ∈ lengths, 0 < length)
    (empty : lengths.sum = 0) :
    lengths = [] := by
  cases lengths with
  | nil => rfl
  | cons length rest =>
      have long : 0 < length := positive length List.mem_cons_self
      rw [List.sum_cons] at empty
      omega

theorem startFor?_of_find?
    {offset : Nat}
    {extent : Extent}
    (found : extents.blocks.find? offset = some extent)
    (first : offset = 0 → extent.start = 0) :
    extents.startFor? offset = some extent.start := by
  unfold startFor?
  split
  · rename_i zero
    rw [first zero]
  · rw [found]

/-- The extent of the first block behind some blocks. -/
theorem find?_layout_split
    (positive : ∀ length ∈ front, 0 < length) :
    (layout width 0 0 (front ++ old :: behind)).find? front.sum =
      some ⟨reach width front, width old, old⟩ := by
  rw [layout_append, Table.find?_append,
    find?_layout_of_le width positive (Nat.le_refl _)]
  simp [layout, Table.find?]

namespace Lays

/-- The blocks that are recorded for a file are those of its layout. -/
theorem find?_iff_mem
    (lays : Lays width lengths extents)
    {key : Nat}
    {extent : Extent} :
    extents.blocks.find? key = some extent ↔
      (key, extent) ∈ layout width 0 0 lengths := by
  rw [lays.blocks]
  constructor
  · exact Table.mem_of_find?
  · intro member
    rcases (mem_layout_iff width).mp member with
      ⟨front, old, behind, rfl, rfl, rfl⟩
    rw [Nat.zero_add, Nat.zero_add]
    exact find?_layout_split fun length among =>
      lays.positive length (List.mem_append_left _ among)

/-- A block is recorded exactly if it follows some of the others, and then its
fragments follow those of the others. -/
theorem find?_iff
    (lays : Lays width lengths extents)
    {key : Nat}
    {extent : Extent} :
    extents.blocks.find? key = some extent ↔
      ∃ front old behind, lengths = front ++ old :: behind ∧
        key = front.sum ∧ extent = ⟨reach width front, width old, old⟩ := by
  rw [lays.find?_iff_mem, mem_layout_iff]
  simp only [Nat.zero_add]

theorem nil :
    Lays width [] {} where
  positive := by simp
  unique := Table.unique_nil
  blocks _ := rfl
  ends part before nonempty :=
    absurd (List.prefix_nil.mp before) nonempty
  size := rfl

/-- Nothing is left of any extents after a cut at zero. -/
theorem cut_all
    (extents : FileExtents) :
    Lays width [] (extents.cut 0) where
  positive := by simp
  unique := by simp [FileExtents.cut, Table.keep]
  blocks := by simp [FileExtents.cut, layout]
  ends part before nonempty :=
    absurd (List.prefix_nil.mp before) nonempty
  size := rfl

theorem positive_front
    (lays : Lays width (front ++ behind) extents) :
    ∀ length ∈ front, 0 < length :=
  fun length member => lays.positive length (List.mem_append_left _ member)

theorem find?_block
    (lays : Lays width (front ++ old :: behind) extents) :
    extents.blocks.find? front.sum =
      some ⟨reach width front, width old, old⟩ :=
  lays.find?_iff.mpr ⟨front, old, behind, rfl, rfl, rfl⟩

theorem find?_end
    (lays : Lays width lengths extents) :
    extents.blocks.find? lengths.sum = none := by
  rw [lays.blocks,
    find?_layout_of_le width lays.positive (Nat.le_refl _)]

theorem starts
    (lays : Lays width (front ++ old :: behind) extents) :
    extents.startFor? front.sum = some (reach width front) := by
  refine startFor?_of_find? lays.find?_block fun zero => ?_
  rw [eq_nil_of_sum_eq_zero lays.positive_front zero, reach_nil]

/-- A block can be appended. -/
theorem continues
    (lays : Lays width lengths extents) :
    Continues width lengths extents where
  positive := lays.positive
  unique := lays.unique
  blocks key _ := lays.blocks key
  ends := lays.ends
  starts := by
    by_cases empty : lengths = []
    · subst empty
      rfl
    · have nonzero : lengths.sum ≠ 0 :=
        fun zero => empty (eq_nil_of_sum_eq_zero lays.positive zero)
      rw [startFor?, if_neg nonzero, lays.find?_end]
      exact lays.ends lengths (List.prefix_refl _) empty

end Lays

/-- A block that is recorded with another length than before can be written
again. -/
theorem continues_of_last
    (old : Nat)
    (positive : ∀ length ∈ front, 0 < length)
    (unique : extents.blocks.Unique)
    (blocks : ∀ key, extents.blocks.find? key =
      (layout width 0 0 (front ++ [old])).find? key)
    (ends : ∀ part, part <+: front → part ≠ [] →
      extents.nextStarts.find? part.sum = some (reach width part)) :
    Continues width front extents where
  positive := positive
  unique := unique
  blocks := by
    intro key apart
    rw [blocks, layout_append, Table.find?_append]
    have last :
        (layout width (0 + front.sum) (0 + reach width front)
          [old]).find? key = none := by
      simp [layout, Table.find?, apart.symm]
    rw [last, Option.or_none]
  ends := ends
  starts := by
    have found := (blocks front.sum).trans (find?_layout_split positive)
    refine startFor?_of_find? found fun zero => ?_
    rw [eq_nil_of_sum_eq_zero positive zero, reach_nil]

/-- The last block can be written again. -/
theorem Lays.continues_last
    (lays : Lays width (front ++ [old]) extents) :
    Continues width front extents :=
  continues_of_last old lays.positive_front lays.unique lays.blocks
    fun part before nonempty =>
      lays.ends part (before.trans (List.prefix_append _ _)) nonempty

/-! ## Recording -/

/-- The block behind the others is recorded. -/
theorem Continues.record
    (continues : Continues width front extents)
    (long : 0 < new)
    (covers : extents.size ≤ front.sum + new) :
    Lays width (front ++ [new])
      (extents.record front.sum ⟨reach width front, width new, new⟩) where
  positive := by
    intro length member
    cases List.mem_append.mp member with
    | inl earlier => exact continues.positive length earlier
    | inr last => exact (List.mem_singleton.mp last) ▸ long
  unique := continues.unique.set _ _
  blocks := by
    intro key
    rw [FileExtents.record, Table.find?_set, layout_append, Table.find?_append]
    split
    · rename_i same
      subst same
      rw [find?_layout_of_le width continues.positive (Nat.le_refl _)]
      simp [layout, Table.find?]
    · rename_i apart
      rw [continues.blocks key (Ne.symm apart)]
      simp [layout, Table.find?, apart]
  ends := by
    intro part before nonempty
    rw [FileExtents.record, Table.find?_set]
    cases List.prefix_concat_iff.mp before with
    | inl whole =>
        subst whole
        simp
    | inr earlier =>
        have shorter : part.sum ≤ front.sum :=
          sum_le_of_prefix earlier
        rw [if_neg (by dsimp only; omega)]
        exact continues.ends part earlier nonempty
  size := by
    simp only [FileExtents.record, List.sum_append, List.sum_singleton]
    omega

/-- A block is recorded again with the same length. -/
theorem Lays.record_same
    (lays : Lays width (front ++ old :: behind) extents) :
    Lays width (front ++ old :: behind)
      (extents.record front.sum ⟨reach width front, width old, old⟩) where
  positive := lays.positive
  unique := lays.unique.set _ _
  blocks := by
    intro key
    rw [FileExtents.record, Table.find?_set, ← lays.blocks]
    split
    · rename_i same
      rw [← same, lays.find?_block]
    · rfl
  ends := by
    intro part before nonempty
    rw [FileExtents.record, Table.find?_set, lays.ends part before nonempty]
    split
    · rename_i same
      have already := lays.ends (front ++ [old])
        (by simp) (by simp)
      rw [← lays.ends part before nonempty, ← same]
      simpa using already.symm
    · rfl
  size := by
    have total := lays.size
    simp only [List.sum_append, List.sum_cons] at total
    simp only [FileExtents.record, total, List.sum_append, List.sum_cons]
    omega

/-! ## Cutting -/

/-- What is left after a cut at the start of a block. -/
theorem Lays.cut
    (lays : Lays width (front ++ behind) extents) :
    Lays width front (extents.cut front.sum) where
  positive := lays.positive_front
  unique := lays.unique.keep fun key => decide (key < front.sum)
  blocks := by
    intro key
    rw [FileExtents.cut, Table.find?_keep]
    simp only [decide_eq_true_eq, lays.blocks]
    exact find?_layout_before width lays.positive
      (fun _ => Nat.le_refl _)
      (fun other past => find?_layout_of_le width lays.positive_front past)
      key
  ends := by
    intro part before nonempty
    have shorter : part.sum ≤ front.sum :=
      sum_le_of_prefix before
    rw [FileExtents.cut, Table.find?_keep, if_pos (by simpa using shorter)]
    exact lays.ends part (before.trans (List.prefix_append _ _)) nonempty
  size := rfl

/-- What is left after a cut inside a block: that block can be written
again. -/
theorem Lays.cut_inside
    {kept : Nat}
    (lays : Lays width (front ++ old :: behind) extents)
    (left : 0 < kept)
    (inside : kept < old) :
    Continues width front (extents.cut (front.sum + kept)) := by
  have whole : front ++ old :: behind = (front ++ [old]) ++ behind := by simp
  rw [whole] at lays
  have positive : ∀ length ∈ front, 0 < length :=
    fun length member =>
      lays.positive_front length (List.mem_append_left _ member)
  refine continues_of_last old positive
    (lays.unique.keep fun key => decide (key < front.sum + kept)) ?_ ?_
  · intro key
    rw [FileExtents.cut, Table.find?_keep]
    simp only [decide_eq_true_eq, lays.blocks]
    refine find?_layout_before width lays.positive ?_ ?_ key
    · intro _
      simp only [List.sum_append, List.sum_singleton]
      omega
    · intro other past
      rw [layout_append, Table.find?_append,
        find?_layout_of_le width positive (by omega)]
      have apart : front.sum ≠ other := by omega
      simp [layout, Table.find?, apart]
  · intro part before nonempty
    have shorter : part.sum ≤ front.sum := sum_le_of_prefix before
    rw [FileExtents.cut, Table.find?_keep,
      if_pos (by rw [decide_eq_true_eq]; omega)]
    exact lays.ends part
      (before.trans ((List.prefix_append _ _).trans (List.prefix_append _ _)))
      nonempty

theorem mem_startsFrom_iff
    (unique : extents.blocks.Unique)
    {size start : Nat} :
    start ∈ extents.startsFrom size ↔
      ∃ key extent, extents.blocks.find? key = some extent ∧
        size ≤ key ∧ extent.start = start := by
  unfold startsFrom Table.keep
  rw [List.mem_map]
  constructor
  · rintro ⟨⟨key, extent⟩, member, rfl⟩
    rcases List.mem_filter.mp member with ⟨there, past⟩
    exact ⟨key, extent, unique.find?_of_mem there, by simpa using past, rfl⟩
  · rintro ⟨key, extent, found, past, rfl⟩
    exact ⟨(key, extent),
      List.mem_filter.mpr ⟨Table.mem_of_find? found, by simpa using past⟩, rfl⟩

/-- The fragment files are never cut inside of the fragments of blocks that
end before the new size. -/
theorem Lays.reach_le_cutLength
    {size length : Nat}
    (lays : Lays width (front ++ behind) extents)
    (passed : front.sum ≤ size)
    (cut : extents.cutLength? size = some length) :
    reach width front ≤ length := by
  have ofStart : length ∈ extents.startsFrom size →
      reach width front ≤ length := by
    intro start
    rcases (mem_startsFrom_iff lays.unique).mp start with
      ⟨key, extent, found, later, rfl⟩
    have past : front.sum ≤ key := Nat.le_trans passed later
    rw [lays.blocks, layout_append, Table.find?_append,
      find?_layout_of_le width lays.positive_front past,
      Option.none_or] at found
    have inside := bounds_of_find?_layout width
      (fun other among =>
        lays.positive other (List.mem_append_right _ among)) found
    omega
  have member := List.min?_mem cut
  split at member
  · rename_i zero
    cases List.mem_cons.mp member with
    | inr start => exact ofStart start
    | inl emptied =>
        have none : front = [] :=
          eq_nil_of_sum_eq_zero lays.positive_front (by omega)
        rw [none, reach_nil]
        exact Nat.zero_le _
  · exact ofStart member

end Strata.FileExtents
