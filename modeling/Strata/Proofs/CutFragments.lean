import Mathlib
import Strata.Proofs.FailedWrites

/-!
# Cut fragments

Where all fragment files of a block are cut to one length, every device
delivers equally few bytes, so the devices agree.  The shards that are left are
then joined as if they were whole: each byte behind the first shard moves to
the front by as much as the shards before it have lost.

The main result says what a read delivers then, and when that is what the block
starts with.
-/

namespace Strata

namespace Bytes

/-- Pieces of one length, joined. -/
theorem getElem?_flatten_map_range
    {width : Nat}
    (some : 0 < width)
    {piece : Nat → Bytes}
    (count : Nat)
    (same : ∀ index, (piece index).length = width)
    (position : Nat) :
    ((List.range count).map piece).flatten[position]? =
      if position < count * width then
        (piece (position / width))[position % width]?
      else
        none := by
  induction count with
  | zero => simp
  | succ count ih =>
      have before : ((List.range count).map piece).flatten.length =
          count * width := by
        simp [List.length_flatten, Function.comp_def, same]
      rw [List.range_succ, List.map_append, List.flatten_append,
        List.map_singleton, List.flatten_singleton, List.getElem?_append,
        before, ih, Nat.succ_mul]
      by_cases earlier : position < count * width
      · rw [if_pos earlier, if_pos earlier, if_pos (by omega)]
      · rw [if_neg earlier]
        rcases Nat.exists_eq_add_of_le (Nat.le_of_not_lt earlier) with
          ⟨rest, rfl⟩
        rw [Nat.add_sub_cancel_left]
        by_cases inside : rest < width
        · have index : (count * width + rest) / width = count := by
            rw [Nat.mul_comm, Nat.mul_add_div some, Nat.div_eq_of_lt inside,
              Nat.add_zero]
          have place : (count * width + rest) % width = rest := by
            rw [Nat.mul_comm, Nat.mul_add_mod, Nat.mod_eq_of_lt inside]
          rw [if_pos (by omega), index, place]
        · rw [if_neg (by omega), List.getElem?_eq_none]
          rw [same]
          omega

end Bytes

namespace ErasureCoder

variable
  {coder : ErasureCoder}
  {block : Bytes}
  {count : Nat}

/-! ## Joining shards that were cut -/

/-- What is made of a block of which `count` bytes of each fragment are
left. -/
def joined
    (coder : ErasureCoder)
    (block : Bytes)
    (count : Nat) :
    Bytes :=
  ((coder.dataShards block).map (·.take count)).flatten.take block.length

@[simp]
theorem joined_zero
    (coder : ErasureCoder)
    (block : Bytes) :
    coder.joined block 0 = [] := by
  simp [joined]

/-- The byte at a position lies in a shard of `count` bytes, but the shards of
the block are `fragmentLength` bytes apart, with zeros behind its end. -/
theorem getElem?_joined
    (short : count ≤ coder.fragmentLength block.length)
    (position : Nat) :
    (coder.joined block count)[position]? =
      if position < coder.code.data * count ∧ position < block.length then
        some (block[position / count * coder.fragmentLength block.length +
          position % count]?.getD 0)
      else
        none := by
  rcases Nat.eq_zero_or_pos count with rfl | left
  · simp
  · have within := Nat.mod_lt position left
    rw [joined, List.getElem?_take, dataShards, List.map_map,
      Bytes.getElem?_flatten_map_range left]
    · grind
    · intro index
      simp [short]

/-- The shards that are left give the start of the block just when each byte
that is asked for is still where it was. -/
theorem take_joined_prefix_iff
    (short : count ≤ coder.fragmentLength block.length)
    (length : Nat) :
    (coder.joined block count).take length <+: block ↔
      ∀ position < length, position < coder.code.data * count →
        position < block.length →
          block[position]? =
            some (block[position / count *
                coder.fragmentLength block.length +
              position % count]?.getD 0) := by
  have found := getElem?_joined short
  rw [List.prefix_iff_getElem?]
  constructor
  · intro same position asked inside there
    have known := found position
    rw [if_pos ⟨inside, there⟩] at known
    rcases List.getElem?_eq_some_iff.mp known with ⟨bound, byte⟩
    rw [same position (by rw [List.length_take]; omega), List.getElem_take,
      byte]
  · intro same position bound
    rw [List.length_take] at bound
    have known := found position
    rw [List.getElem?_eq_getElem (by omega)] at known
    split at known
    · rename_i inside
      rw [same position (by omega) inside.1 inside.2, ← known,
        List.getElem_take]
    · cases known

/-- A byte is still where it was in the first shard, or where nothing is
lost. -/
theorem place_eq
    {data width position length : Nat}
    (known : data = 1 ∨ count = 0 ∨ count = width ∨ length ≤ count)
    (asked : position < length)
    (inside : position < data * count) :
    position / count * width + position % count = position := by
  have first (before : position < count) :
      position / count * width + position % count = position := by
    rw [Nat.div_eq_of_lt before, Nat.mod_eq_of_lt before, Nat.zero_mul,
      Nat.zero_add]
  rcases known with rfl | rfl | rfl | front
  · exact first (by omega)
  · omega
  · exact Nat.div_add_mod' position count
  · exact first (by omega)

theorem fragmentLength_le
    (shaped : 0 < coder.code.data)
    {length : Nat}
    (long : 0 < length) :
    coder.fragmentLength length ≤ length := by
  refine Nat.div_le_of_le_mul ?_
  have others := Nat.le_mul_of_pos_right (coder.code.data - 1) long
  rw [Nat.sub_mul, Nat.one_mul] at others
  have all := Nat.le_mul_of_pos_left length shaped
  omega

/-- For all blocks of one length the shards that are left give the start of
the block only where nothing is asked for behind the first of them, or nothing
is left, or nothing is lost. -/
theorem take_joined_prefix_all_iff
    (shaped : 0 < coder.code.data)
    {size : Nat}
    (nonempty : 0 < size)
    (short : count ≤ coder.fragmentLength size)
    (length : Nat) :
    (∀ block : Bytes, block.length = size →
        (coder.joined block count).take length <+: block) ↔
      coder.code.data = 1 ∨ count = 0 ∨ count = coder.fragmentLength size ∨
        length ≤ count := by
  constructor
  · intro all
    by_contra others
    simp only [not_or] at others
    rcases others with ⟨several, left, lost, behind⟩
    have least := coder.fragmentLength_le shaped nonempty
    have shards : count < coder.code.data * count :=
      lt_mul_of_one_lt_left (by omega) (by omega)
    -- Of this block only the byte behind the shortened first shard counts.
    have given := all ((Bytes.zeros size).set count 1) (by simp)
    rw [take_joined_prefix_iff (by simpa using short)] at given
    have marked := given count (by omega) shards (by simp; omega)
    have moved : count / count * coder.fragmentLength size + count % count =
        coder.fragmentLength size := by
      rw [Nat.div_self (by omega), Nat.mod_self, Nat.one_mul, Nat.add_zero]
    rw [List.length_set, Bytes.length_zeros, moved, List.getElem?_set_ne lost,
      List.getElem?_set_self (by simp; omega), Bytes.getElem?_zeros] at marked
    split at marked <;> simp at marked
  · rintro known block rfl
    rw [take_joined_prefix_iff short]
    intro position asked inside there
    rw [place_eq known asked inside, List.getElem?_eq_getElem there,
      Option.getD_some]

/-! ## Decoding shards that were cut -/

/-- As much of each fragment as is left is joined, unless nothing is. -/
theorem decode_cut
    (shaped : coder.Shaped)
    {fragments : List Bytes}
    (split : coder.fragments block = .ok fragments)
    (some : 0 < count)
    (short : count ≤ coder.fragmentLength block.length) :
    coder.decode ((fragments.map (·.take count)).map .some) block.length =
      .ok (coder.joined block count) := by
  rcases shaped.of_fragments split with ⟨first, total, same⟩
  have each : ∀ shard ∈ fragments.map (·.take count),
      shard.length = count := by
    intro shard member
    rcases List.mem_map.mp member with ⟨whole, among, rfl⟩
    rw [List.length_take, same whole among, Nat.min_eq_left short]
  have enough : coder.code.data ≤ (fragments.map (·.take count)).length := by
    rw [List.length_map, ← length_dataShards coder block]
    exact first.length_le
  have data := List.prefix_iff_eq_take.mp first
  rw [length_dataShards] at data
  have rebuilt := ReedSolomon.reconstruct_of_length enough some each
  rw [← List.map_take, ← data] at rebuilt
  rw [decode, if_neg (by simpa using total), rebuilt]
  rfl

/-- A block that is recorded at an offset of a path, with its fragments in the
device files where the record says. -/
structure Records
    (coder : ErasureCoder)
    (path : Path)
    (offset : Nat)
    (extent : Extent)
    (block : Bytes)
    (contents : List Bytes) :
    Prop where
  located : coder.locate path offset = .ok (some extent)
  length : extent.block = block.length
  fragments : coder.fragments block =
    .ok (contents.map (·.slice extent.start extent.fragment))

theorem Reached.fragment_of_records
    (reached : coder.Reached)
    {path : Path}
    {offset : Nat}
    {extent : Extent}
    {contents : List Bytes}
    (records : coder.Records path offset extent block contents) :
    extent.fragment = coder.fragmentLength block.length := by
  rw [← records.length]
  exact (reached.measured_recorded path).fragment _ _
    (locate_eq_some_iff.mp records.located)

/-- Where the files are cut, as much of each fragment is left. -/
theorem Reached.slice_of_records
    (reached : coder.Reached)
    {path : Path}
    {offset cut : Nat}
    {extent : Extent}
    {contents : List Bytes}
    (records : coder.Records path offset extent block contents)
    (within : cut ≤ extent.start + extent.fragment)
    {content : Bytes}
    (member : content ∈ contents) :
    (content.resize cut).slice extent.start extent.fragment =
        (content.slice extent.start extent.fragment).take
          (cut - extent.start) ∧
      ((content.resize cut).slice extent.start extent.fragment).length =
        cut - extent.start := by
  have whole := (reached.shaped.of_fragments records.fragments).2.2 _
    (List.mem_map.mpr ⟨content, member, rfl⟩)
  rw [← reached.fragment_of_records records, Bytes.length_slice] at whole
  constructor
  · apply List.ext_getElem?
    grind
  · rw [Bytes.length_slice, Bytes.length_resize]
    omega

/-- What is encoded is recorded, and stored where it was written. -/
theorem records_of_encode
    (reached : coder.Reached)
    {path : Path}
    {offset : Nat}
    {fragments contents : List Bytes}
    {extent : Extent}
    (encoded : ((encode path block offset).execute coder).1 =
      .ok (fragments, extent))
    (count : fragments.length = contents.length) :
    (coder.after (.encode path block offset)).Records path offset extent block
      (spliceAll contents extent.start fragments) := by
  rcases reached.sound.exists_start_of_encode encoded with
    ⟨split, start, -, rfl, left⟩
  have shaped := reached.shaped
  have wide := coder.fragmentLength_pos shaped.data (pos_of_fragments split)
  refine ⟨?_, rfl, ?_⟩
  · rw [locate_eq_some_iff, left, FileExtents.record, Table.find?_set,
      if_pos rfl]
  · rw [map_slice_spliceAll_self count wide (shaped.of_fragments split).2.2]
    unfold ErasureCoder.fragments dataShards fragmentLength at split ⊢
    rwa [code_after]

end ErasureCoder

namespace Devices

variable
  {κ : Type}
  {devices : Devices κ}
  {places : List String}
  {Holds : List Descriptor → List Bytes → κ → Prop}
  {opened : List Descriptor}
  {contents : List Bytes}
  {coder : ErasureCoder}
  {fleet : Fleet κ}
  {path : Path}
  {offset cut : Nat}
  {extent : Extent}
  {block : Bytes}

/-- From cut files a read is answered with what is made of the shards that
are left. -/
theorem read_cut_answers
    (serves : devices.backend.Serves places Holds)
    (reached : coder.Reached)
    (erasure : fleet.coder = .erasure coder)
    (records : coder.Records path offset extent block contents)
    (within : cut ≤ extent.start + extent.fragment)
    (held : Holds opened (contents.map (·.resize cut)) fleet.host)
    (length : Nat) :
    (devices.read path ⟨opened⟩ offset length).Answers fleet
      ((coder.joined block (cut - extent.start)).take length)
      (fun later => later.coder = fleet.coder ∧
        Holds opened (contents.map (·.resize cut)) later.host) := by
  have shaped := reached.shaped
  have width := reached.fragment_of_records records
  have wide := coder.fragmentLength_pos shaped.data
    (ErasureCoder.pos_of_fragments records.fragments)
  have slices (content : Bytes) (member : content ∈ contents) :=
    reached.slice_of_records records within member
  generalize amount : cut - extent.start = count at *
  have located : fleet.coder.locate path offset length =
      .ok (some (Coder.placementOf extent)) := by
    rw [erasure, Coder.locate, records.located]
    rfl
  rw [read]
  refine (Fleet.askCoder_answers located).bind fun middle kept => ?_
  subst kept
  dsimp only [Coder.placementOf]
  rw [if_neg (by omega)]
  have narrow : ∀ content ∈ contents.map (·.resize cut),
      (content.slice extent.start extent.fragment).length = count := by
    intro content member
    rcases List.mem_map.mp member with ⟨whole, among, rfl⟩
    exact (slices whole among).2
  refine (fanOut_read_answers serves narrow held).bind
    fun later served => ?_
  rcases served with ⟨kept, holds⟩
  have fragments :
      ((contents.map (·.resize cut)).map fun content => Outcome.data
          (content.slice extent.start extent.fragment)).map (·.bytes) =
        (contents.map (·.slice extent.start extent.fragment)).map
          (·.take count) := by
    rw [List.map_map, List.map_map, List.map_map]
    exact List.map_congr_left fun content member => (slices content member).1
  rw [fragments]
  have head : (((contents.map (·.slice extent.start extent.fragment)).map
      (·.take count)).headD []).length = count := by
    cases contents with
    | nil =>
        have devices := (shaped.of_fragments records.fragments).2.1
        have data := shaped.data
        have parts : 0 = coder.code.data + coder.code.parity := devices
        omega
    | cons first others =>
        rw [List.map_cons, List.map_cons, List.headD_cons,
          ← (slices first List.mem_cons_self).1]
        exact (slices first List.mem_cons_self).2
  split
  · rename_i empty
    rw [List.isEmpty_iff_length_eq_zero, head] at empty
    rw [empty, ErasureCoder.joined_zero, List.take_nil]
    exact .pure ⟨kept, holds⟩
  · rename_i filled
    rw [List.isEmpty_iff_length_eq_zero, head] at filled
    have decoded : later.coder.decode
        ((contents.map (·.slice extent.start extent.fragment)).map
          (·.take count)) (Coder.placementOf extent) =
            .ok (coder.joined block count) := by
      rw [kept, erasure, Coder.decode, Coder.placementOf, Option.getD_some,
        records.length]
      exact ErasureCoder.decode_cut shaped records.fragments (by omega)
        (by omega)
    refine (Fleet.askCoder_answers decoded).bind fun final same => ?_
    subst same
    exact .pure ⟨kept, holds⟩

/--
From fragment files that were all cut to one length, inside or before the
fragments of a block that they stored, a read of the block always succeeds, with
what is made of the shards that are left.  That is what the block starts with
just when each of its bytes that is asked for is still where it was; for all
blocks of the length it is so only with one data shard, or where the cut leaves
all of a fragment or nothing, or where no more is asked for than the cut leaves
of the first shard.
-/
theorem cut_read_prefix_iff
    (recorder : Nat)
    (serves : devices.backend.Serves places Holds)
    (reached : coder.Reached)
    {session : Session (Fleet κ)}
    (erasure : session.storage.coder = .erasure coder)
    (records : coder.Records path offset extent block contents)
    (within : cut ≤ extent.start + extent.fragment)
    (held : Holds opened (contents.map (·.resize cut)) session.storage.host)
    (length : Nat) :
    ((Layer.ofDevices devices (Session.meter recorder)).read path ⟨opened⟩
        offset length).Answers session
        ((coder.joined block (cut - extent.start)).take length)
        (fun later => later.storage.coder = session.storage.coder ∧
          Holds opened (contents.map (·.resize cut)) later.storage.host) ∧
      ((coder.joined block (cut - extent.start)).take length <+: block ↔
        ∀ position < length,
          position < coder.code.data * (cut - extent.start) →
          position < block.length →
            block[position]? =
              some (block[position / (cut - extent.start) * extent.fragment +
                position % (cut - extent.start)]?.getD 0)) ∧
      ((∀ other : Bytes, other.length = block.length →
          (coder.joined other (cut - extent.start)).take length <+: other) ↔
        coder.code.data = 1 ∨ cut ≤ extent.start ∨
          cut = extent.start + extent.fragment ∨
          length ≤ cut - extent.start) := by
  have shaped := reached.shaped
  have nonempty := ErasureCoder.pos_of_fragments records.fragments
  have width := reached.fragment_of_records records
  have wide := coder.fragmentLength_pos shaped.data nonempty
  have short : cut - extent.start ≤ coder.fragmentLength block.length := by
    omega
  refine ⟨?_, ?_, ?_⟩
  · rcases Session.timed_answers recorder "read"
      (Session.onStorage (devices.read path ⟨opened⟩ offset length)) session
      with ⟨started, storage, timed⟩
    rw [← storage] at erasure held ⊢
    exact timed _ _ (Session.onStorage_answers
      (read_cut_answers serves reached erasure records within held length))
  · rw [width]
    exact ErasureCoder.take_joined_prefix_iff short length
  · rw [ErasureCoder.take_joined_prefix_all_iff shaped.data nonempty short
        length]
    have nothing : cut - extent.start = 0 ↔ cut ≤ extent.start := by omega
    have all : cut - extent.start = coder.fragmentLength block.length ↔
        cut = extent.start + extent.fragment := by
      omega
    rw [nothing, all]

/-- Of a block of four bytes one byte of each fragment is left.  A read of one
byte gives the first byte of the block, and a read of four gives two bytes that
the block does not start with. -/
theorem cut_read_prefix_iff_of_two_data_shards :
    ∃ session : Session (Fleet DeviceShelf),
      (∃ later,
        ((Layer.ofDevices onShelf (Session.meter 0)).read ⟨["file"]⟩
          ⟨[0, 1, 2]⟩ 0 1).execute session = (.ok [1], later)) ∧
        [1] <+: [1, 2, 3, 4] ∧
        (∃ later,
          ((Layer.ofDevices onShelf (Session.meter 0)).read ⟨["file"]⟩
            ⟨[0, 1, 2]⟩ 0 4).execute session = (.ok [1, 3], later)) ∧
        ¬[1, 3] <+: [1, 2, 3, 4] := by
  have empty : ErasureCoder.Reached { code := ⟨2, 1, [[3, 2]]⟩ } :=
    .made ErasureCoder.ofShape_two_one
  have encoded :
      ((ErasureCoder.encode ⟨["file"]⟩ [1, 2, 3, 4] 0).execute
          { code := ⟨2, 1, [[3, 2]]⟩ }).1 =
        .ok ([[1, 2], [3, 4], [5, 14]], ⟨0, 2, 4⟩) := by
    rfl
  have records := ErasureCoder.records_of_encode empty encoded
    (rfl : _ = [([] : Bytes), [], []].length)
  have stored : spliceAll [[], [], []] 0 [[1, 2], [3, 4], [5, 14]] =
      [[1, 2], [3, 4], [5, 14]] := by
    rfl
  rw [stored] at records
  have distinct :
      (onShelf.filePlaces emptyShelf.storage.coder ⟨["file"]⟩).Nodup := by
    decide +kernel
  let session : Session (Fleet DeviceShelf) :=
    { storage :=
        ⟨.erasure (ErasureCoder.after { code := ⟨2, 1, [[3, 2]]⟩ }
            (.encode ⟨["file"]⟩ [1, 2, 3, 4] 0)),
          (onShelf.filePlaces emptyShelf.storage.coder ⟨["file"]⟩).zip
            [[1], [3], [5]]⟩ }
  have serves : onShelf.backend.Serves _ _ := DeviceShelf.serves distinct
  have held : DeviceShelf.Keeps
      (onShelf.filePlaces emptyShelf.storage.coder ⟨["file"]⟩) [0, 1, 2]
      ([[1, 2], [3, 4], [5, 14]].map (Bytes.resize · 1)) session.storage.host :=
    ⟨rfl, by decide, rfl⟩
  have erasure : session.storage.coder = .erasure _ := rfl
  have read := cut_read_prefix_iff 0 serves (.called empty _) erasure records
    (by decide) held
  refine ⟨session, ?_, by decide, ?_, by decide⟩
  · rcases (read 1).1 with ⟨later, ran, -⟩
    exact ⟨later, ran⟩
  · rcases (read 4).1 with ⟨later, ran, -⟩
    exact ⟨later, ran⟩

/-- A block is written, its fragment files are cut to one byte each, and what
is read is not what the block starts with. -/
theorem cut_read_shifts :
    ((do
      let stage := Layer.ofDevices onShelf (Session.meter 0)
      let handle ← stage.create ⟨["file"]⟩ 420
      let _ ← stage.write ⟨["file"]⟩ handle 0 [1, 2, 3, 4]
      -- The files are cut without the coder being told.
      Session.onStorage (onShelf.onHandle handle (.truncateOpened · 1))
      stage.read ⟨["file"]⟩ handle 0 4 :
        Action (Session (Fleet DeviceShelf)) Bytes).execute emptyShelf).1 =
        .ok [1, 3] ∧
      ¬[1, 3] <+: [1, 2, 3, 4] :=
  ⟨rfl, by decide⟩

end Devices

end Strata
