import Strata.Proofs.BlockTransfers
import Strata.Proofs.ByteDevices
import Strata.Proofs.NameCalls
import Strata.Proofs.RecordedBlocks

/-!
# Blocks on devices

A file on the devices may be a row of blocks of one size, of which only the
last may be shorter.  Where the devices serve what they are asked for, the
device stage moves the blocks of such a file with every coder.

A cut inside a block, or a write that leaves a hole, may leave books that lack
a block.  How long the file is stays known with every coder, and so it does
under each write that is taken.
-/

namespace Strata

open FileExtents (Lays)

variable {κ : Type}

/-! ## Rows of blocks of one size -/

namespace BlockSize

/-- The lengths of the blocks of a file. -/
def lengths
    (size : BlockSize)
    (held : Nat) :
    List Nat :=
  List.replicate (held / size.bytes) size.bytes ++
    if held % size.bytes = 0 then [] else [held % size.bytes]

variable
  {size : BlockSize}
  {held offset : Nat}

theorem sum_lengths
    (size : BlockSize)
    (held : Nat) :
    (size.lengths held).sum = held := by
  have whole := Nat.div_add_mod' held size.bytes
  unfold lengths
  split <;> simp <;> omega

theorem lengths_zero
    (size : BlockSize) :
    size.lengths 0 = [] := by
  simp [lengths]

/-- A block of a file that is not longer is the only one. -/
theorem lengths_of_le
    (some : 0 < held)
    (fits : held ≤ size.bytes) :
    size.lengths held = [held] := by
  rcases Nat.eq_or_lt_of_le fits with full | short
  · simp [lengths, full, Nat.div_self size.positive]
  · simp [lengths, Nat.div_eq_of_lt short, Nat.mod_eq_of_lt short,
      Nat.ne_of_gt some]

/-- The blocks of a file are those before the start of a block and those from
there on. -/
theorem lengths_add
    (even : size.inside offset = 0)
    (rest : Nat) :
    size.lengths (offset + rest) =
      size.lengths offset ++ size.lengths rest := by
  have index : size.bytes * (offset / size.bytes) = offset :=
    Nat.mul_div_cancel' (Nat.dvd_of_mod_eq_zero even)
  have whole : offset % size.bytes = 0 := even
  have divided : (offset + rest) / size.bytes =
      offset / size.bytes + rest / size.bytes := by
    conv_lhs => rw [← index]
    exact Nat.mul_add_div size.positive _ _
  have left : (offset + rest) % size.bytes = rest % size.bytes := by
    rw [← index]
    exact Nat.mul_add_mod _ _ _
  unfold lengths
  rw [divided, left, whole, if_pos rfl, List.append_nil, List.replicate_add,
    List.append_assoc]

variable {blocks : List Bytes}

/-- Where a block starts, a row of blocks is parted. -/
theorem exists_parts
    (row : sizes blocks = size.lengths held)
    (even : size.inside offset = 0)
    (there : offset ≤ held) :
    ∃ front behind,
      blocks = front ++ behind ∧
        sizes front = size.lengths offset ∧
        sizes behind = size.lengths (held - offset) := by
  rw [← Nat.add_sub_of_le there, lengths_add even] at row
  exact List.map_eq_append_iff.mp row

/-- Where a request about one block starts inside of the file, there is that
block: the request is for exactly its length, or for more if it is the last
one. -/
theorem Spans.exists_block
    {length : Nat}
    (spans : size.Spans held offset length)
    (there : offset < held)
    (row : sizes blocks = size.lengths held) :
    ∃ front old behind,
      blocks = front ++ old :: behind ∧
        sizes front = size.lengths offset ∧
        old.length = min length (held - offset) ∧
        (length = old.length ∨ behind = [] ∧ old.length ≤ length) := by
  rcases exists_parts row spans.even (Nat.le_of_lt there) with
    ⟨front, behind, rfl, before, after⟩
  have fits := spans.fits
  have covers := spans.covers
  rcases Nat.lt_or_ge (held - offset) size.bytes with short | full
  · rw [lengths_of_le (Nat.sub_pos_of_lt there) (Nat.le_of_lt short)] at after
    rcases List.map_eq_singleton_iff.mp after with ⟨old, rfl, long⟩
    exact ⟨front, old, [], rfl, before, by omega, .inr ⟨rfl, by omega⟩⟩
  · have first : size.inside size.bytes = 0 := Nat.mod_self _
    rw [← Nat.add_sub_of_le full, lengths_add first,
      lengths_of_le size.positive (Nat.le_refl _)] at after
    rcases List.map_eq_cons_iff.mp after with ⟨old, rest, rfl, long, -⟩
    exact ⟨front, old, rest, rfl, before, by omega, .inl (by omega)⟩

end BlockSize

/-! ## Files of a known length -/

namespace Fleet

variable
  (base : Coder)
  (devices : Nat)
  (files : List Bytes → κ → Prop)
  (path : Path)

/-- The file at a path is a row of blocks of one size, and ends with the last
of them. -/
def Blocks
    (size : BlockSize)
    (held : Nat)
    (fleet : Fleet κ) :
    Prop :=
  ∃ blocks, sizes blocks = size.lengths held ∧
    fleet.Keeps base devices files path blocks

/-- The file at a path has a length: the books say so, and where there are
none each device file has it. -/
structure Sized
    (held : Nat)
    (fleet : Fleet κ) :
    Prop where
  follows : Coder.Follows devices base fleet.coder
  records : fleet.coder.Records path (·.size = held)
  rows : ∃ contents,
    contents.length = devices ∧
      (base.mode ≠ .erasure → ∀ content ∈ contents, content.length = held) ∧
      files contents fleet.host

variable
  {base : Coder}
  {devices : Nat}
  {files : List Bytes → κ → Prop}
  {path : Path}
  {size : BlockSize}
  {held : Nat}
  {fleet : Fleet κ}

theorem Blocks.sized
    (whole : fleet.Blocks base devices files path size held) :
    fleet.Sized base devices files path held := by
  rcases whole with ⟨blocks, row, follows, records, contents, stores, kept⟩
  have total : (sizes blocks).sum = held := by rw [row, size.sum_lengths]
  rw [total] at stores
  refine ⟨follows, records.imp fun _ lays => lays.size.trans total, contents,
    stores.count, fun plain => ?_, kept⟩
  rw [← total] at stores ⊢
  exact stores.length_eq plain

/-- A row of blocks is still there where the books and the device files are
what they were. -/
theorem Blocks.frame
    (whole : fleet.Blocks base devices files path size held) :
    ∃ contents, contents.length = devices ∧ files contents fleet.host ∧
      ∀ reached : Fleet κ,
        reached.coder = fleet.coder ∧ files contents reached.host →
          reached.Blocks base devices files path size held := by
  rcases whole with ⟨blocks, row, follows, records, contents, stores, kept⟩
  refine ⟨contents, stores.count, kept, fun reached ⟨coder, holds⟩ => ?_⟩
  rw [← coder] at follows records
  exact ⟨blocks, row, follows, records, contents, stores, holds⟩

end Fleet

/-! ## Encoding -/

/-- What is known of the fragments of a block that a coder has split: how many
there are, how long they are, and that without books they go where the block
goes.  The coder has recorded where the block ends. -/
theorem Coder.encode_ok
    {coder reached : Coder}
    {devices offset : Nat}
    {path : Path}
    {block : Bytes}
    {pads : List Bytes}
    {placed : FragmentSet}
    (fits : coder.Fits devices)
    (count : pads.length = coder.padCount devices)
    (same : ∀ pad ∈ pads, pad.length = block.length)
    (ran : (encode path block offset devices pads).execute coder =
      (.ok placed, reached)) :
    Follows devices coder reached ∧
      placed.fragments.length = devices ∧
      placed.placement.length = coder.width block.length ∧
      (∀ fragment ∈ placed.fragments,
        fragment.length = placed.placement.length) ∧
      (coder.mode ≠ .erasure → placed.placement.offset = offset) ∧
      ∀ held, coder.Records path (·.size = held) →
        reached.Records path (·.size = max held (offset + block.length)) := by
  by_cases plain : coder.mode ≠ .erasure
  · rcases encode_answers_of_plain plain fits count same path offset with
      ⟨fragments, decodes, encoded⟩
    rcases encoded.eq_of_ok ran with ⟨rfl, rfl⟩
    have long := decodes.length
    rw [width_of_plain plain] at long ⊢
    refine ⟨⟨fits, rfl⟩, decodes.count, rfl, long, fun _ => rfl, ?_⟩
    intro held _
    cases reached with
    | erasure coder => exact absurd rfl plain
    | _ => trivial
  cases coder with
  | replicate => exact absurd (by decide) plain
  | xor => exact absurd (by decide) plain
  | erasure coder =>
      simp only [encode, Action.execute_ofRun] at ran
      rcases Prod.mk.inj ran with ⟨answered, rfl⟩
      cases encoded :
          ((ErasureCoder.encode path block offset).execute coder).1 with
      | error error =>
          rw [encoded] at answered
          cases answered
      | ok made =>
          rw [encoded] at answered
          cases answered
          rcases fits.1.sound.exists_start_of_encode encoded with
            ⟨split, start, -, place, recorded⟩
          rcases fits.1.shaped.of_fragments split with ⟨-, total, long⟩
          have width : made.2.fragment = coder.fragmentLength block.length :=
            congrArg Extent.fragment place
          refine ⟨follows_after fits (.encode path block offset),
            total.trans fits.2, width, fun fragment member => ?_,
            fun wrong => absurd rfl wrong, fun held known => ?_⟩
          · exact (long fragment member).trans width.symm
          · have sized := congrArg FileExtents.size recorded
            rw [place] at sized
            exact sized.trans (congrArg (max · (offset + block.length)) known)

/-! ## Files that can be opened again -/

/-- The device files can be opened again, under the descriptors that they
have, and closed. -/
structure Backend.Reopens
    (backend : Backend κ)
    (places : List String)
    (Holds : List Descriptor → List Bytes → κ → Prop) :
    Prop where
  openFile : ∀ (device : Nat) place access file opened contents state,
    Holds opened contents state →
    places[device]? = some place →
    opened[device]? = some file →
      ∃ reached,
        backend.perform (.openFile place access) state =
            (some (.ok (.opened file)), reached) ∧
          Holds opened contents reached
  release : ∀ (device : Nat) file opened contents state,
    Holds opened contents state →
    opened[device]? = some file →
      ∃ reached,
        backend.perform (.release file) state =
            (some (.ok .done), reached) ∧
          Holds opened contents reached

namespace Devices

variable
  {devices : Devices κ}
  {base : Coder}
  {path : Path}
  {Holds : List Descriptor → List Bytes → κ → Prop}
  {opened : List Descriptor}
  {contents : List Bytes}
  {fleet after : Fleet κ}
  {size : BlockSize}
  {held offset : Nat}

/-- A fan-out that leaves the files as they are. -/
theorem fanOut_kept_answers
    {requests : List DeviceRequest}
    {outcomes : List Outcome}
    (count : outcomes.length = requests.length)
    (calm : requests.any (·.isTransfer) = false)
    (performs : ∀ (device : Nat) request outcome state,
      requests[device]? = some request → outcomes[device]? = some outcome →
        Holds opened contents state →
          ∃ reached,
            devices.backend.perform request state =
                (some (.ok outcome), reached) ∧
              Holds opened contents reached)
    (kept : Holds opened contents fleet.host) :
    (devices.fanOut requests).Answers fleet outcomes
      (fun reached => reached.coder = fleet.coder ∧
        Holds opened contents reached.host) := by
  refine Fleet.onHost_answers (Fanout.dispatch_answers
    (fun _ => Holds opened contents) count kept performs ?_)
  intro transfer
  rw [calm] at transfer
  cases transfer

section Reopened

variable
  (reopens : devices.backend.Reopens (devices.filePlaces base path) Holds)
include reopens

theorem openFile_kept_answers
    (serves : devices.backend.Serves (devices.filePlaces base path) Holds)
    (access : Access)
    (follows : Coder.Follows devices.count base fleet.coder)
    (rows : contents.length = devices.count)
    (kept : Holds opened contents fleet.host) :
    (devices.openFile path access).Answers fleet ⟨opened⟩
      (fun reached => reached.coder = fleet.coder ∧
        Holds opened contents reached.host) := by
  have files : (devices.files path).Answers fleet
      (devices.filePlaces base path) (· = fleet) :=
    Fleet.askCoder_answers (by rw [filePlaces_of_follows follows])
  have long : opened.length = (devices.filePlaces base path).length := by
    rw [serves.opened _ _ _ kept, rows, length_filePlaces]
  have fanned : (devices.fanOut
      ((devices.filePlaces base path).map (.openFile · access))).Answers fleet
        (opened.map .opened)
        (fun reached => reached.coder = fleet.coder ∧
          Holds opened contents reached.host) := by
    refine fanOut_kept_answers (by simp [long])
      (by simp [DeviceRequest.isTransfer]) ?_ kept
    intro device request outcome state asked answered held
    rw [List.getElem?_map, Option.map_eq_some_iff] at asked answered
    rcases asked with ⟨place, there, rfl⟩
    rcases answered with ⟨file, found, rfl⟩
    exact reopens.openFile device place access file opened contents state held
      there found
  refine files.bind fun reached same => ?_
  subst same
  refine fanned.bind fun reached held => ?_
  rw [descriptors_opened]
  exact ⟨reached, rfl, held⟩

theorem release_kept_answers
    (kept : Holds opened contents fleet.host) :
    (devices.onHandle ⟨opened⟩ .release).Answers fleet ()
      (fun reached => reached.coder = fleet.coder ∧
        Holds opened contents reached.host) := by
  have fanned : (devices.fanOut (opened.map .release)).Answers fleet
      (opened.map fun _ => .done)
      (fun reached => reached.coder = fleet.coder ∧
        Holds opened contents reached.host) := by
    refine fanOut_kept_answers (by simp) (by simp [DeviceRequest.isTransfer])
      ?_ kept
    intro device request outcome state asked answered held
    rw [List.getElem?_map, Option.map_eq_some_iff] at asked answered
    rcases asked with ⟨file, there, rfl⟩
    rcases answered with ⟨_, _, rfl⟩
    exact reopens.release device file opened contents state held there
  exact fanned.bind fun _ held => .pure held

end Reopened

/-! ## Transfers -/

/-- Whatever a read answers, it changes neither the books nor the device
files. -/
theorem read_preserves
    {places : List String}
    (serves : devices.backend.Serves places Holds)
    (coder : Coder)
    (path : Path)
    (offset length : Nat) :
    (devices.read path ⟨opened⟩ offset length).Preserves
      (fun fleet => fleet.coder = coder ∧
        Holds opened contents fleet.host) := by
  have asked {γ : Type} (question : Coder → Except Error γ) :
      (Fleet.askCoder question).Preserves (fun fleet : Fleet κ =>
        fleet.coder = coder ∧ Holds opened contents fleet.host) :=
    fun _ known => known
  have fanned (first width : Nat) :
      (devices.fanOut (opened.map (.read · first width))).Preserves
        (fun fleet => fleet.coder = coder ∧
          Holds opened contents fleet.host) := by
    rintro fleet ⟨same, kept⟩
    refine ⟨same, fanOut_preserves ?_ fleet kept⟩
    intro request listed state kept
    rcases List.mem_map.mp listed with ⟨file, member, rfl⟩
    rcases List.mem_iff_getElem?.mp member with ⟨device, found⟩
    have inside : device < contents.length := by
      rw [← serves.opened _ _ _ kept]
      exact (List.getElem?_eq_some_iff.mp found).1
    rcases serves.read device file first width _ _ _ _ kept found
        (List.getElem?_eq_getElem inside) with
      ⟨reached, performed, same⟩
    rwa [performed]
  refine (asked _).bind fun placement => ?_
  cases placement with
  | none => exact .pure _
  | some placement =>
      dsimp only
      split
      · exact .pure _
      refine (fanned _ _).bind fun outcomes => ?_
      split
      · exact .pure _
      · exact (asked _).bind fun block => .pure _

/-- A write that is taken takes all of its bytes, and the file is as long as it
was or ends with the block, whatever else is known of it. -/
theorem write_ok
    (serves : devices.backend.Serves (devices.filePlaces base path) Holds)
    {block : Bytes}
    {pads : List Bytes}
    {written : Nat}
    (nonempty : block ≠ [])
    (count : pads.length = fleet.coder.padCount devices.count)
    (same : ∀ pad ∈ pads, pad.length = block.length)
    (sized : fleet.Sized base devices.count (Holds opened) path held)
    (ran : (devices.write path ⟨opened⟩ offset block pads).execute fleet =
      (.ok written, after)) :
    written = block.length ∧
      after.Sized base devices.count (Holds opened) path
        (max held (offset + block.length)) := by
  rcases sized with ⟨follows, records, contents, rows, long, kept⟩
  rcases Action.execute_bind_eq_ok ran with
    ⟨⟨fragments, placement⟩, middle, encoded, -⟩
  simp only [Fleet.onCoder, Action.execute_ofRun] at encoded
  rcases Prod.mk.inj encoded with ⟨answered, -⟩
  have placed : (Coder.encode path block offset devices.count pads).execute
      fleet.coder = (.ok ⟨fragments, placement⟩, _) :=
    Prod.ext answered rfl
  rcases Coder.encode_ok follows.fits count same placed with
    ⟨later, number, wide, width, place, recorded⟩
  dsimp only at number width place wide
  have some : 0 < fragments.length := number ▸ follows.fits.devices_pos
  have writes := write_fragments_answers serves ⟨_, placed, rfl⟩
    (List.ne_nil_of_length_pos some) width (number.trans rows.symm) kept
  rcases writes.eq_of_ok ran with ⟨rfl, coder, holds⟩
  refine ⟨rfl, ?_, ?_, _, ?_, fun plain => ?_, holds⟩
  · exact coder ▸ follows.trans later
  · exact coder ▸ recorded held records
  · rw [length_spliceAll (number.trans rows.symm), rows]
  · rw [follows.width, Coder.width_of_plain plain] at wide
    rw [place (follows.mode ▸ plain), ← show _ = block.length from wide]
    exact length_of_mem_spliceAll (long plain) width
      (wide ▸ List.length_pos_iff.mpr nonempty)

/-- A write that starts no block past the end leaves all blocks there. -/
theorem write_blocks_answers
    (serves : devices.backend.Serves (devices.filePlaces base path) Holds)
    {block : Bytes}
    {pads : List Bytes}
    (count : pads.length = fleet.coder.padCount devices.count)
    (same : ∀ pad ∈ pads, pad.length = block.length)
    (spans : size.Spans held offset block.length)
    (reaches : offset ≤ held)
    (whole :
      fleet.Blocks base devices.count (Holds opened) path size held) :
    (devices.write path ⟨opened⟩ offset block pads).Answers fleet block.length
      (Fleet.Blocks base devices.count (Holds opened) path size
        (max held (offset + block.length))) := by
  rcases whole with ⟨blocks, row, keeps⟩
  have nonempty := List.ne_nil_of_length_pos spans.nonempty
  have appended {front : List Bytes}
      (before : sizes front = size.lengths offset) :
      sizes (front ++ [block]) = size.lengths (offset + block.length) := by
    rw [sizes_append, before, BlockSize.lengths_add spans.even,
      BlockSize.lengths_of_le spans.nonempty spans.fits]
    rfl
  have start {front : List Bytes}
      (before : sizes front = size.lengths offset) :
      offset = (sizes front).sum := by
    rw [before, size.sum_lengths]
  rcases Nat.eq_or_lt_of_le reaches with rfl | there
  · rw [Nat.max_eq_right (Nat.le_add_right _ _)]
    rw [start row]
    refine (write_awaited_answers serves nonempty count same
      (keeps.awaits _)).weaken fun reached kept => ⟨_, ?_, kept⟩
    rw [← start row]
    exact appended row
  rcases spans.exists_block there row with
    ⟨front, old, behind, rfl, before, long, exactly | ⟨rfl, covers⟩⟩
  · rw [Nat.max_eq_left (by omega), start before]
    refine (rewrite_answers serves nonempty count same exactly
      keeps).weaken fun reached kept => ⟨_, ?_, kept⟩
    rw [← row, sizes_append, sizes_append, sizes_cons, sizes_cons, exactly]
  · have total := size.sum_lengths held
    rw [← row, sizes_append, List.sum_append, ← start before] at total
    rw [Nat.max_eq_right (by simp at total; omega)]
    have awaits := keeps.awaits_last covers
    rw [start before]
    refine (write_awaited_answers serves nonempty count same
      awaits).weaken fun reached kept => ⟨_, ?_, kept⟩
    rw [← start before]
    exact appended before

/-- A write with drawn pads is one with some pads of the right number and
length. -/
theorem writeDrawn_ok
    {handle : FileHandle}
    {block : Bytes}
    {written : Nat}
    {before reached : Session (Fleet κ)}
    (nonempty : block ≠ [])
    (ran : (devices.writeDrawn path handle offset block).execute before =
      (.ok written, reached)) :
    ∃ pads : List Bytes,
      pads.length = before.storage.coder.padCount devices.count ∧
        (∀ pad ∈ pads, pad.length = block.length) ∧
        (devices.write path handle offset block pads).execute before.storage =
          (.ok written, reached.storage) := by
  rcases
      Session.drawPads_answers
        (before.storage.coder.padCount devices.count) block.length before with
    ⟨pads, count, same, drawn⟩
  rw [writeDrawn, if_neg (by simpa using nonempty)] at ran
  rcases Action.execute_bind_eq_ok ran with ⟨coder, started, asked, ran⟩
  rcases Prod.mk.inj asked with ⟨known, rfl⟩
  obtain rfl := Except.ok.inj known
  rcases Action.execute_bind_eq_ok ran with ⟨found, middle, draws, ran⟩
  rcases drawn.eq_of_ok draws with ⟨rfl, kept⟩
  have wrote := Session.execute_onStorage ran
  rw [kept] at wrote
  exact ⟨found, count, same, wrote⟩

/-! ## Cuts and sizes -/

/-- A handle that is optional and, if it is given, a certain one. -/
theorem own_of_forall
    {handle : Option FileHandle}
    {known : FileHandle}
    (good : ∀ given ∈ handle, given = known) :
    handle = none ∨ handle = some known := by
  cases handle with
  | none => exact .inl rfl
  | some given => exact .inr (congrArg some (good given rfl))

/-- A cut leaves a file of the length that it was to have, whatever becomes of
its last block. -/
theorem truncate_sized_answers
    (serves : devices.backend.Serves (devices.filePlaces base path) Holds)
    {handle : Option FileHandle}
    (own : handle = none ∨ handle = some ⟨opened⟩)
    (target : Nat)
    (whole :
      fleet.Blocks base devices.count (Holds opened) path size held) :
    (devices.truncate path handle target).Answers fleet ()
      (Fleet.Sized base devices.count (Holds opened) path target) := by
  rcases whole with ⟨blocks, -, keeps⟩
  by_cases plain : base.mode ≠ .erasure
  · rcases keeps with ⟨follows, records, contents, stores, kept⟩
    obtain rfl := Eq.symm (follows.eq plain)
    refine (truncate_files_answers plain serves own target stores.count
      kept).weaken fun reached ⟨coder, holds⟩ => ?_
    refine ⟨coder ▸ follows, ?_, _, ?_, fun _ content member => ?_, holds⟩
    · rw [coder]
      cases known : fleet.coder with
      | erasure coder => exact absurd (by rw [known]; rfl) plain
      | _ => trivial
    · rw [List.length_map, stores.count]
    · rcases List.mem_map.mp member with ⟨_, _, rfl⟩
      exact Bytes.length_resize _ _
  · have cut : (devices.truncate path handle target).Answers fleet ()
        (Fleet.Rows base devices.count (Holds opened) path (·.size = target)
          target []) :=
      truncate_answers serves own (Nat.zero_le target) (fun _ _ => rfl) keeps
    refine cut.weaken fun reached ⟨later, records, contents, stores, holds⟩ =>
      ?_
    exact ⟨later, records, contents, stores.count,
      fun wrong => absurd wrong plain, holds⟩

/-- The length of a file is what is known of its size, asked by path or
handle. -/
theorem attributes_sized_answers
    (serves : devices.backend.Serves (devices.filePlaces base path) Holds)
    {handle : Option FileHandle}
    (own : handle = none ∨ handle = some ⟨opened⟩)
    (sized : fleet.Sized base devices.count (Holds opened) path held) :
    ∃ found, found.size = held ∧
      (devices.attributes path handle).Answers fleet found (· = fleet) := by
  rcases sized with ⟨follows, records, contents, rows, long, kept⟩
  rw [← filePlaces_of_follows follows] at serves
  rcases attributes_held_answers serves own rows follows.fits.devices_pos kept
    with ⟨found, content, member, size, answers⟩
  refine ⟨found, size.trans ?_, answers⟩
  cases coder : fleet.coder with
  | erasure books =>
      rw [coder] at records
      exact (books.trackedSize_eq path).trans records
  | _ =>
      refine long ?_ content member
      rw [← follows.mode, coder]
      decide

end Devices

namespace Layer

variable
  {devices : Devices κ}
  {base : Coder}
  {path : Path}
  {Holds : List Descriptor → List Bytes → κ → Prop}

/-- Whatever the coder is, the device stage moves blocks of any size, and has a
place for each of them. -/
theorem ofDevices_movesBlocks
    (serves : devices.backend.Serves (devices.filePlaces base path) Holds)
    (reopens : devices.backend.Reopens (devices.filePlaces base path) Holds)
    (opened : List Descriptor)
    (size : BlockSize)
    (recorder : Nat) :
    MovesBlocks (Layer.ofDevices devices (Session.meter recorder)) path size
      (· = ⟨opened⟩) (fun _ => True) (fun _ => True)
      (fun held session => session.storage.Blocks base devices.count
        (Holds opened) path size held)
      (fun held session => session.storage.Sized base devices.count
        (Holds opened) path held) := by
  have sized : ∀ handle held before found after,
      (∀ given ∈ handle, given = ⟨opened⟩) →
      Fleet.Sized base devices.count (Holds opened) path held
        (Session.storage before) →
      ((Layer.ofDevices devices (Session.meter recorder)).fileSize path
          handle).execute before = (.ok found, after) →
        found = held ∧ after.storage = before.storage := by
    intro handle held before found after good known ran
    rcases Devices.attributes_sized_answers serves (Devices.own_of_forall good)
        known with
      ⟨attributes, size, answers⟩
    have sizes :
        ((Layer.ofDevices devices (Session.meter recorder)).fileSize path
          handle).Answers before attributes.size
            (fun reached => reached.storage = before.storage) :=
      (Session.onStorage_answers answers).bind fun _ kept => .pure kept
    rcases sizes.eq_of_ok ran with ⟨rfl, kept⟩
    exact ⟨size, kept⟩
  constructor
  case earlier => exact fun _ _ _ _ => trivial
  case sized => exact fun _ _ whole => whole.sized
  case openFile =>
    intro access held before handle after whole ran
    rcases whole.frame with ⟨contents, rows, kept, framed⟩
    have answers := Session.onStorage_answers (Devices.openFile_kept_answers
      reopens serves access whole.sized.follows rows kept)
    rcases answers.eq_of_ok ran with ⟨rfl, same⟩
    exact ⟨rfl, framed _ same⟩
  case release =>
    rintro _ held before after rfl whole ran
    rcases whole.frame with ⟨contents, -, kept, framed⟩
    have answers := Session.onStorage_answers
      (Devices.release_kept_answers reopens kept)
    exact framed _ (answers.eq_of_ok ran).2
  case read =>
    rintro _ offset length held before found after rfl whole ran
    dsimp only [ofDevices] at ran
    rcases Session.execute_timed_eq_ok ran with
      ⟨started, reached, same, looked, last⟩
    have read := Session.execute_onStorage looked
    rw [same] at read
    rw [last]
    constructor
    · rcases whole.frame with ⟨contents, -, kept, framed⟩
      have preserved := Devices.read_preserves serves before.storage.coder path
        offset length before.storage ⟨rfl, kept⟩
      rw [read] at preserved
      exact framed _ preserved
    · intro spans there
      rcases whole with ⟨blocks, row, keeps⟩
      rcases spans.exists_block there row with
        ⟨front, old, behind, rfl, starts, long, asked⟩
      have nonempty : old ≠ [] := by
        refine List.ne_nil_of_length_pos ?_
        have := spans.nonempty
        omega
      have answers := Devices.read_answers serves nonempty asked keeps
      rw [starts, size.sum_lengths] at answers
      rw [(answers.eq_of_ok read).1, long]
  case readUnplaced =>
    exact fun _ _ _ _ _ _ _ nowhere _ => absurd trivial nowhere
  case write =>
    rintro _ offset data held before count after rfl known - spans ran
    dsimp only [ofDevices] at ran
    rcases Session.execute_timed_eq_ok ran with
      ⟨started, reached, same, wrote, last⟩
    have nonempty := List.ne_nil_of_length_pos spans.nonempty
    rcases Devices.writeDrawn_ok nonempty wrote with
      ⟨pads, number, each, written⟩
    rw [same] at number written
    rcases Devices.write_ok serves nonempty number each known written with
      ⟨rfl, kept⟩
    rw [last]
    refine ⟨rfl, kept, fun whole reaches => ?_⟩
    have answers := Devices.write_blocks_answers serves number each spans
      reaches whole
    exact (answers.eq_of_ok written).2
  case writeUnplaced =>
    exact fun _ _ _ _ _ _ _ nowhere _ => absurd trivial nowhere
  case truncate =>
    intro handle target held before after good whole _ ran
    have answers := Session.onStorage_answers (Devices.truncate_sized_answers
      serves (Devices.own_of_forall good) target whole)
    exact (answers.eq_of_ok ran).2
  case fileSize =>
    intro handle held before found after good whole ran
    rcases sized handle held before found after good whole.sized ran with
      ⟨rfl, kept⟩
    exact ⟨rfl, kept ▸ whole⟩
  case evenSize =>
    intro handle held before found after good known _ ran
    rcases sized handle held before found after good known ran with
      ⟨rfl, kept⟩
    exact ⟨rfl, kept ▸ known⟩

end Layer

namespace DeviceShelf

/-- Files in memory can be opened again. -/
theorem reopens
    {places : List String}
    (distinct : places.Nodup) :
    backend.Reopens places (Keeps places) := by
  have unchanged {device : Nat} {opened : List Descriptor}
      {contents : List Bytes} {shelf : DeviceShelf} {file : Descriptor}
      (keeps : shelf.Keeps places opened contents)
      (there : opened[device]? = some file)
      (outcome : Outcome) :
      ∃ reached, shelf.onFile device (fun _ => outcome) id =
          (some (.ok outcome), reached) ∧
        reached.Keeps places opened contents := by
    have inside : device < contents.length := by
      have := (List.getElem?_eq_some_iff.mp there).1
      simpa [keeps.numbers] using this
    rcases
        keeps.onFile (List.getElem?_eq_getElem inside) (fun _ => outcome) id
      with ⟨reached, performed, kept⟩
    refine ⟨reached, performed, ?_⟩
    rwa [id, List.set_getElem_self] at kept
  constructor
  case openFile =>
    intro device place access file opened contents shelf keeps there found
    obtain rfl := keeps.lt found
    have made := (List.getElem?_eq_some_iff.mp found).1
    rw [keeps.numbers, List.length_range] at made
    have number := keeps.number? distinct there made
    rcases unchanged keeps found (.opened file) with ⟨reached, performed, kept⟩
    refine ⟨reached, ?_, kept⟩
    simp only [backend, onPlace, number]
    exact performed
  case release =>
    intro device file opened contents shelf keeps found
    obtain rfl := keeps.lt found
    exact unchanged keeps found .done

end DeviceShelf

end Strata
