import Strata.Proofs.LostFragments
import Strata.Proofs.RecordedBlocks

/-!
# Tiled fragment files

A file that had no name before is written one block behind the other.  Its
blocks are written again where they are, the last one also with more in it, and
it is cut where a block starts, or inside of a block whose rest is then written
before anything else.  However long this goes on, there is a place for every
block, the blocks fill the file, and their fragments fill the fragment files in
the same order.  So a cut of the fragment files never takes anything away from
a block that is kept, and never leaves anything of one that goes.

The table of next starts keeps the ends of blocks that were cut or became
longer.  Such an end lies inside of a block, and no run of this kind writes
there: the layout of the lengths of the blocks, which says nothing about those
entries, is all that a step needs to know.
-/

namespace Strata

/-! ## Blocks of a layout -/

namespace FileExtents

variable
  {width : Nat → Nat}
  {lengths : List Nat}
  {extents : FileExtents}
  {key size : Nat}
  {extent : Extent}

/-- Whether extents lie one behind the other: their blocks from an offset to
the end of a file, and their fragments from a start to the end of a fragment
file. -/
inductive Tiles :
    (offset start : Nat) → Table Nat Extent → (size reach : Nat) → Prop where
  | nil
      {offset start : Nat} :
      Tiles offset start [] offset start
  | cons
      {offset start size reach : Nat}
      {extent : Extent}
      {rest : Table Nat Extent}
      (starts : extent.start = start)
      (block : 0 < extent.block)
      (fragment : 0 < extent.fragment)
      (tiles : Tiles (offset + extent.block) (start + extent.fragment) rest
        size reach) :
      Tiles offset start ((offset, extent) :: rest) size reach

theorem tiles_layout
    (wide : ∀ length, 0 < length → 0 < width length)
    (positive : ∀ length ∈ lengths, 0 < length)
    (offset start : Nat) :
    Tiles offset start (layout width offset start lengths)
      (offset + lengths.sum) (start + reach width lengths) := by
  induction lengths generalizing offset start with
  | nil => exact .nil
  | cons length rest ih =>
      have long : 0 < length := positive length List.mem_cons_self
      have tiles := ih
        (fun other member => positive other (List.mem_cons_of_mem _ member))
        (offset + length) (start + width length)
      rw [Nat.add_assoc, Nat.add_assoc] at tiles
      rw [List.sum_cons, reach_cons]
      exact .cons rfl long (wide length long) tiles

/-! ## Where a cut ends -/

/-- When the fragment files of a file cannot be cut, it is not emptied and no
block goes. -/
theorem lt_of_cutLength?_eq_none
    (unique : extents.blocks.Unique)
    (stays : extents.cutLength? size = none) :
    size ≠ 0 ∧
      ∀ key extent, extents.blocks.find? key = some extent → key < size := by
  rw [cutLength?, List.min?_eq_none_iff] at stays
  split at stays
  · cases stays
  · rename_i left
    refine ⟨left, fun key extent found => ?_⟩
    by_contra past
    have member := (mem_startsFrom_iff unique).mpr
      ⟨key, extent, found, Nat.le_of_not_lt past, rfl⟩
    rw [stays] at member
    cases member

/-- The fragment files are cut behind the fragments of the blocks that start
before the new size. -/
theorem Lays.exists_front_of_cutLength?
    (lays : Lays width lengths extents)
    (wide : ∀ length, 0 < length → 0 < width length)
    {length : Nat}
    (cut : extents.cutLength? size = some length) :
    ∃ front, front <+: lengths ∧ length = reach width front ∧
      size ≤ front.sum ∧
        ∀ init last, front = init ++ [last] → init.sum < size := by
  by_cases emptied : size = 0
  · subst emptied
    refine ⟨[], List.nil_prefix, ?_, Nat.le_refl _, ?_⟩
    · rw [cutLength?, if_pos rfl, List.min?_eq_some_iff] at cut
      exact Nat.le_zero.mp (cut.2 0 List.mem_cons_self)
    · intro init last split
      exact absurd split.symm (List.append_ne_nil_of_right_ne_nil _ (by simp))
  · rw [cutLength?, if_neg emptied, List.min?_eq_some_iff] at cut
    rcases cut with ⟨member, least⟩
    rcases (mem_startsFrom_iff lays.unique).mp member with
      ⟨key, extent, found, past, rfl⟩
    rcases lays.find?_iff.mp found with ⟨front, old, behind, rfl, rfl, rfl⟩
    refine ⟨front, List.prefix_append _ _, rfl, past, ?_⟩
    rintro init last rfl
    by_contra early
    -- Otherwise the block before would go too, and start earlier.
    have before := lays.find?_iff.mpr
      ⟨init, last, old :: behind, List.append_assoc _ _ _, rfl, rfl⟩
    have bound := least _ ((mem_startsFrom_iff lays.unique).mpr
      ⟨_, _, before, Nat.le_of_not_lt early, rfl⟩)
    have long := wide last (lays.positive_front last (by simp))
    simp only [reach_append, reach_cons, reach_nil] at bound
    omega

/-- Of the blocks that start before some of the first ones end, none starts
behind the last of these. -/
theorem sum_le_of_lt
    {before init : List Nat}
    {last : Nat}
    (one : before <+: lengths)
    (two : init ++ [last] <+: lengths)
    (early : before.sum < (init ++ [last]).sum) :
    before.sum ≤ init.sum := by
  rcases List.prefix_or_prefix_of_prefix one two with shorter | longer
  · rcases List.prefix_concat_iff.mp shorter with rfl | within
    · exact absurd early (Nat.lt_irrefl _)
    · exact sum_le_of_prefix within
  · have further := sum_le_of_prefix longer
    exact absurd early (Nat.not_lt.mpr further)

end FileExtents

/-! ## Runs on one path -/

namespace ErasureCoder

open FileExtents

variable
  {coder first : ErasureCoder}
  {path : Path}
  {block : Bytes}
  {offset size length : Nat}

/-- Whether the blocks of a file fill it, or the last block was cut and is to
be written again up to the cut. -/
inductive Fit where
  | whole
  | torn (offset kept : Nat)

/-- The blocks that a run may write next. -/
inductive Writes
    (coder : ErasureCoder)
    (path : Path) :
    Fit → (block : Bytes) → (offset : Nat) → Prop where
  /-- A block behind the others. -/
  | append
      {block : Bytes}
      {offset : Nat}
      (nonempty : block ≠ [])
      (behind : offset = coder.trackedSize path) :
      Writes coder path .whole block offset
  /-- A block in the place of one that is as long. -/
  | again
      {block : Bytes}
      {offset : Nat}
      {extent : Extent}
      (found : coder.locate path offset = .ok (some extent))
      (same : block.length = extent.block) :
      Writes coder path .whole block offset
  /-- A block in the place of the last one, if that is shorter. -/
  | longer
      {block : Bytes}
      {offset : Nat}
      {extent : Extent}
      (found : coder.locate path offset = .ok (some extent))
      (last : offset + extent.block = coder.trackedSize path)
      (more : extent.block < block.length) :
      Writes coder path .whole block offset
  /-- What is left of a block that was cut. -/
  | rest
      {block : Bytes}
      {offset kept : Nat}
      (upTo : offset + block.length = offset + kept) :
      Writes coder path (.torn offset kept) block offset

/-- The sizes that a run may cut a file to next. -/
inductive Cuts
    (coder : ErasureCoder)
    (path : Path) :
    (size : Nat) → Fit → Prop where
  | all :
      Cuts coder path 0 .whole
  /-- Where a block starts. -/
  | before
      {size : Nat}
      {extent : Extent}
      (found : coder.locate path size = .ok (some extent)) :
      Cuts coder path size .whole
  /-- Inside of a block. -/
  | inside
      {offset kept : Nat}
      {extent : Extent}
      (found : coder.locate path offset = .ok (some extent))
      (left : 0 < kept)
      (less : kept < extent.block) :
      Cuts coder path (offset + kept) (.torn offset kept)

/-- The coders that a run on a path leads to, and what the file of the path is
like then. -/
inductive FileRun
    (path : Path)
    (first : ErasureCoder) :
    ErasureCoder → Fit → Prop where
  | start :
      FileRun path first first .whole
  | written
      {coder : ErasureCoder}
      {fit : Fit}
      {block : Bytes}
      {offset : Nat}
      (run : FileRun path first coder fit)
      (writes : Writes coder path fit block offset) :
      FileRun path first (coder.after (.encode path block offset)) .whole
  | cut
      {coder : ErasureCoder}
      {fit : Fit}
      {size : Nat}
      (run : FileRun path first coder .whole)
      (cuts : Cuts coder path size fit) :
      FileRun path first (coder.after (.truncate path size)) fit

/-- The blocks of a file fill it, and their fragments fill the fragment files
in the same order. -/
def Tiled
    (coder : ErasureCoder)
    (path : Path) :
    Prop :=
  ∃ blocks reach,
    Tiles 0 0 blocks (coder.trackedSize path) reach ∧
      ∀ offset extent, coder.locate path offset = .ok (some extent) ↔
        (offset, extent) ∈ blocks

/-- A block is encoded at an offset.  The extent that is answered has the length
of the block and that of the fragments, it is found at the offset afterwards,
and the size reaches to the end of the block. -/
def TakesIn
    (coder : ErasureCoder)
    (path : Path)
    (block : Bytes)
    (offset : Nat) :
    Prop :=
  ∃ fragments extent,
    ((encode path block offset).execute coder).1 = .ok (fragments, extent) ∧
      extent.block = block.length ∧
      (∀ fragment ∈ fragments, fragment.length = extent.fragment) ∧
      let written := coder.after (.encode path block offset)
      written.locate path offset = .ok (some extent) ∧
        offset + block.length ≤ written.trackedSize path

/-- A length is where the fragments of the last block end that starts before a
size, and zero if there is no such block. -/
def EndsKept
    (coder : ErasureCoder)
    (path : Path)
    (size length : Nat) :
    Prop :=
  (∃ offset extent,
    coder.locate path offset = .ok (some extent) ∧ offset < size ∧
      (∀ other recorded,
        coder.locate path other = .ok (some recorded) → other < size →
          other ≤ offset) ∧
      length = extent.start + extent.fragment) ∨
  ((∀ other recorded,
      coder.locate path other = .ok (some recorded) → size ≤ other) ∧
    length = 0)

/-! ## What a run keeps -/

/-- What is recorded for the file of a path: the layout of its blocks, except
that one of them may have to be written again. -/
def Fits
    (coder : ErasureCoder)
    (path : Path) :
    Fit → Prop
  | .whole =>
    ∃ lengths, Lays coder.fragmentLength lengths (coder.recorded path)
  | .torn offset kept =>
    0 < kept ∧ ∃ front, offset = front.sum ∧
      Continues coder.fragmentLength front (coder.recorded path) ∧
        (coder.recorded path).size = front.sum + kept

variable {fit : Fit}

theorem fits_of_unknown
    (fresh : coder.identity? path = none) :
    Fits coder path .whole := by
  refine ⟨[], ?_⟩
  rw [recorded, fresh]
  exact .nil

theorem fragmentLength_after
    (coder : ErasureCoder)
    (call : BookCall) :
    (coder.after call).fragmentLength = coder.fragmentLength := by
  funext length
  rw [fragmentLength, code_after, fragmentLength]

/-- Every block of a run has a place, and what is recorded once it is written
there is the layout of blocks again. -/
theorem Fits.exists_start
    (fits : Fits coder path fit)
    (writes : Writes coder path fit block offset) :
    0 < block.length ∧
      ∃ start, (coder.recorded path).startFor? offset = some start ∧
        ∃ lengths, Lays coder.fragmentLength lengths
          ((coder.recorded path).record offset
            ⟨start, coder.fragmentLength block.length, block.length⟩) := by
  cases writes with
  | append nonempty behind =>
      have long := List.length_pos_iff.mpr nonempty
      rcases fits with ⟨lengths, lays⟩
      have continues := lays.continues
      rw [behind, trackedSize_eq, lays.size]
      exact ⟨long, _, continues.starts, _,
        continues.record long (by rw [lays.size]; omega)⟩
  | again found same =>
      rcases fits with ⟨lengths, lays⟩
      rcases lays.find?_iff.mp (locate_eq_some_iff.mp found) with
        ⟨front, old, behind, rfl, rfl, rfl⟩
      rw [same]
      exact ⟨lays.positive old (by simp), _, lays.starts, _, lays.record_same⟩
  | longer found last more =>
      rcases fits with ⟨lengths, lays⟩
      rcases lays.find?_iff.mp (locate_eq_some_iff.mp found) with
        ⟨front, old, behind, rfl, rfl, rfl⟩
      have nothing : behind = [] := by
        refine eq_nil_of_sum_eq_zero
          (fun length among => lays.positive length (by simp [among])) ?_
        rw [trackedSize_eq, lays.size, List.sum_append, List.sum_cons] at last
        dsimp only at last
        omega
      subst nothing
      have long : 0 < block.length := by omega
      have continues := lays.continues_last
      refine ⟨long, _, continues.starts, _, continues.record long ?_⟩
      rw [lays.size, List.sum_append, List.sum_singleton]
      dsimp only at more
      omega
  | rest upTo =>
      rcases fits with ⟨left, front, rfl, continues, size⟩
      have long : 0 < block.length := by omega
      exact ⟨long, _, continues.starts, _,
        continues.record long (by omega)⟩

/-- A block of a run is encoded and found then, and the blocks fill the
file. -/
theorem Fits.encode
    (fits : Fits coder path fit)
    (reached : coder.Reached)
    (writes : Writes coder path fit block offset) :
    TakesIn coder path block offset ∧
      Fits (coder.after (.encode path block offset)) path .whole := by
  rcases fits.exists_start writes with ⟨long, start, starts, lengths, lays⟩
  have shaped := reached.shaped
  rcases exists_fragments shaped.data shaped.weights
      (List.length_pos_iff.mp long) with
    ⟨rest, split, -, same⟩
  rcases reached.sound.encode_recorded split starts with
    ⟨extent, rfl, answer, left⟩
  refine ⟨⟨_, _, answer, rfl, same, ?_, ?_⟩, lengths, ?_⟩
  · rw [locate_eq_some_iff, left]
    exact (Table.find?_set _ _ _ _).trans (if_pos rfl)
  · rw [trackedSize_eq, left]
    exact Nat.le_max_right _ _
  · rw [fragmentLength_after, left]
    exact lays

/-- After a cut of a run the blocks fill the file, or the one that was cut can
be written again. -/
theorem Fits.truncate
    (fits : Fits coder path .whole)
    (reached : coder.Reached)
    (cuts : Cuts coder path size fit) :
    Fits (coder.after (.truncate path size)) path fit := by
  have left := (reached.sound.truncate_recorded path size).2
  rcases fits with ⟨lengths, lays⟩
  cases cuts with
  | all =>
      refine ⟨[], ?_⟩
      rw [left]
      exact .cut_all _
  | before found =>
      rcases lays.find?_iff.mp (locate_eq_some_iff.mp found) with
        ⟨front, old, behind, rfl, rfl, rfl⟩
      refine ⟨front, ?_⟩
      rw [fragmentLength_after, left]
      exact lays.cut
  | inside found some less =>
      rcases lays.find?_iff.mp (locate_eq_some_iff.mp found) with
        ⟨front, old, behind, rfl, rfl, rfl⟩
      refine ⟨some, front, rfl, ?_, ?_⟩
      · rw [fragmentLength_after, left]
        exact lays.cut_inside some less
      · rw [left]
        rfl

/-- What a whole run keeps. -/
theorem FileRun.fits
    (run : FileRun path first coder fit)
    (reached : first.Reached)
    (fresh : first.identity? path = none) :
    coder.Reached ∧ Fits coder path fit := by
  induction run with
  | start => exact ⟨reached, fits_of_unknown fresh⟩
  | written _ writes ih =>
      exact ⟨ih.1.called _, (ih.2.encode ih.1 writes).2⟩
  | cut _ cuts ih => exact ⟨ih.1.called _, ih.2.truncate ih.1 cuts⟩

/-! ## What the coder says of such a file -/

theorem Fits.tiled
    (fits : Fits coder path .whole)
    (reached : coder.Reached) :
    Tiled coder path := by
  rcases fits with ⟨lengths, lays⟩
  have tiles := tiles_layout
    (fun _ => coder.fragmentLength_pos reached.shaped.data) lays.positive 0 0
  rw [Nat.zero_add, ← lays.size, ← trackedSize_eq] at tiles
  exact ⟨_, _, tiles, fun offset extent =>
    locate_eq_some_iff.trans lays.find?_iff_mem⟩

/-- The length that fragment files are cut to is where the fragments of the
last block that is kept end. -/
theorem Fits.endsKept
    (fits : Fits coder path .whole)
    (reached : coder.Reached)
    (cut : (coder.truncate path size).1 = some length) :
    EndsKept coder path size length := by
  rcases fits with ⟨lengths, lays⟩
  unfold EndsKept
  simp only [locate_eq_some_iff, lays.find?_iff]
  rw [(reached.sound.truncate_recorded path size).1] at cut
  rcases lays.exists_front_of_cutLength?
      (fun _ => coder.fragmentLength_pos reached.shaped.data) cut with
    ⟨front, kept, rfl, covered, early⟩
  rcases List.eq_nil_or_concat' front with rfl | ⟨init, last, rfl⟩
  · refine .inr ⟨fun other recorded _ => ?_, rfl⟩
    exact Nat.le_trans covered (Nat.zero_le _)
  · rcases kept with ⟨behind, rfl⟩
    refine .inl ⟨_, _, ⟨init, last, behind, by simp, rfl, rfl⟩,
      early init last rfl, ?_, by simp⟩
    rintro other recorded ⟨before, old, rest, split, rfl, rfl⟩ within
    exact sum_le_of_lt ⟨_, split.symm⟩ (List.prefix_append _ _)
      (Nat.lt_of_lt_of_le within covered)

/--
For all numbers of shards that the field has room for there is a coder, and
whatever it was used for: in a run on a path that it does not know, there is a
place for every block, and the block is found there once it is written; unless
a block was cut and is to be written again, the blocks fill the file and their
fragments fill the fragment files in the same order; and then the fragment
files, whatever size the file is cut to, are cut where the fragments of the
last block that is kept end, and are left alone only if no block goes and the
file is not emptied.
-/
theorem blocks_tile_fragment_files
    {data parity : Nat}
    (someData : 0 < data)
    (someParity : 0 < parity)
    (few : data + parity ≤ 256) :
    ∃ made, ofShape data parity = .ok made ∧
      ∀ (first coder : ErasureCoder) (path : Path) (fit : Fit),
        first.Reached → first.code = made.code →
        first.identity? path = none → FileRun path first coder fit →
          (fit = .whole → Tiled coder path) ∧
          (∀ block offset, Writes coder path fit block offset →
            TakesIn coder path block offset) ∧
          (fit = .whole → ∀ size,
            (∀ length, (coder.truncate path size).1 = some length →
              EndsKept coder path size length) ∧
            ((coder.truncate path size).1 = none →
              size ≠ 0 ∧ ∀ offset extent,
                coder.locate path offset = .ok (some extent) →
                  offset < size)) := by
  rcases exists_ofShape someData someParity few with ⟨made, shape, -⟩
  refine ⟨made, shape, ?_⟩
  intro first coder path fit started _ fresh run
  rcases run.fits started fresh with ⟨reached, fits⟩
  refine ⟨?_, ?_, ?_⟩
  · rintro rfl
    exact fits.tiled reached
  · exact fun block offset writes => (fits.encode reached writes).1
  · rintro rfl size
    refine ⟨fun length cut => fits.endsKept reached cut, fun stays => ?_⟩
    rcases fits with ⟨lengths, lays⟩
    rw [(reached.sound.truncate_recorded path size).1] at stays
    rcases lt_of_cutLength?_eq_none lays.unique stays with ⟨left, kept⟩
    exact ⟨left, fun offset extent found =>
      kept offset extent (locate_eq_some_iff.mp found)⟩

/-- A coder with two data shards that knows one file. -/
def knowingFile
    (blocks : Table Nat Extent)
    (nextStarts : Table Nat Nat)
    (size : Nat) :
    ErasureCoder :=
  { code := ⟨2, 1, [[3, 2]]⟩
    identities := ⟨1, [("/file", 0)]⟩
    extents := [(0, ⟨blocks, nextStarts, size⟩)] }

/-- Blocks of three and two bytes are written, the second is cut after one
byte, and that byte is written again.  Then there is a place for a block behind
them, and a cut where the second block starts leaves the two bytes that the
fragments of the first one have. -/
theorem blocks_tile_fragment_files_of_cut_block :
    ∃ coder : ErasureCoder,
      Tiled coder ⟨["file"]⟩ ∧
        coder.trackedSize ⟨["file"]⟩ = 4 ∧
        coder.locate ⟨["file"]⟩ 3 = .ok (some ⟨2, 1, 1⟩) ∧
        TakesIn coder ⟨["file"]⟩ [6, 7] 4 ∧
        (coder.truncate ⟨["file"]⟩ 3).1 = some 2 ∧
        EndsKept coder ⟨["file"]⟩ 3 2 := by
  rcases
      blocks_tile_fragment_files (by decide : 0 < 2) (by decide : 0 < 1)
        (by decide) with
    ⟨made, shape, tiles⟩
  cases ofShape_two_one.symm.trans shape
  have afterFirst :
      after { code := ⟨2, 1, [[3, 2]]⟩ } (.encode ⟨["file"]⟩ [1, 2, 3] 0) =
        knowingFile [(0, ⟨0, 2, 3⟩)] [(3, 2)] 3 := by
    rfl
  have afterSecond :
      (knowingFile [(0, ⟨0, 2, 3⟩)] [(3, 2)] 3).after
          (.encode ⟨["file"]⟩ [4, 5] 3) =
        knowingFile [(3, ⟨2, 1, 2⟩), (0, ⟨0, 2, 3⟩)] [(5, 3), (3, 2)] 5 := by
    rfl
  have afterCut :
      (knowingFile [(3, ⟨2, 1, 2⟩), (0, ⟨0, 2, 3⟩)] [(5, 3), (3, 2)] 5).after
          (.truncate ⟨["file"]⟩ (3 + 1)) =
        knowingFile [(3, ⟨2, 1, 2⟩), (0, ⟨0, 2, 3⟩)] [(3, 2)] 4 := by
    rfl
  have afterRest :
      (knowingFile [(3, ⟨2, 1, 2⟩), (0, ⟨0, 2, 3⟩)] [(3, 2)] 4).after
          (.encode ⟨["file"]⟩ [4] 3) =
        knowingFile [(3, ⟨2, 1, 1⟩), (0, ⟨0, 2, 3⟩)] [(4, 3), (3, 2)] 4 := by
    rfl
  have first := FileRun.written
    (.start : FileRun ⟨["file"]⟩ { code := ⟨2, 1, [[3, 2]]⟩ } _ _)
    (.append (by decide : ([1, 2, 3] : Bytes) ≠ []) (rfl : 0 = _))
  rw [afterFirst] at first
  have second := first.written
    (.append (by decide : ([4, 5] : Bytes) ≠ []) (rfl : 3 = _))
  rw [afterSecond] at second
  have cut := second.cut
    (.inside (rfl : locate _ _ 3 = .ok (some ⟨2, 1, 2⟩)) (by decide : 0 < 1)
      (by decide))
  rw [afterCut] at cut
  have rest := cut.written (.rest (rfl : 3 + ([4] : Bytes).length = 3 + 1))
  rw [afterRest] at rest
  rcases tiles _ _ _ _ (.made shape) rfl rfl rest with
    ⟨tiled, written, cuts⟩
  have block :
      (knowingFile [(3, ⟨2, 1, 1⟩), (0, ⟨0, 2, 3⟩)] [(4, 3), (3, 2)]
        4).locate ⟨["file"]⟩ 3 = .ok (some ⟨2, 1, 1⟩) := by
    rfl
  exact ⟨_, tiled rfl, rfl, block, written _ _ (.append (by decide) rfl), rfl,
    (cuts rfl 3).1 _ rfl⟩

end ErasureCoder

end Strata
