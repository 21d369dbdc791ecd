import Strata.Proofs.DeviceFiles

/-!
# Rows of blocks on devices

A file on the devices is a row of blocks when the coder knows where the
fragments of each block lie and the device files store them there.  Each
request that starts at a block leaves such a row: what was appended, written
again or cut off in the row was so in the device files, with every coder.
-/

namespace Strata

open FileExtents (reach Lays Continues)

variable {κ : Type}

namespace Fleet

/--
The file at a path is a row of blocks on the devices.  `law` is what the books
say about it if there are books, `limit` how long the device files are at most
if there are none, and `files` ties the device files to the host.
-/
structure Rows
    (base : Coder)
    (devices : Nat)
    (files : List Bytes → κ → Prop)
    (path : Path)
    (law : FileExtents → Prop)
    (limit : Nat)
    (blocks : List Bytes)
    (fleet : Fleet κ) :
    Prop where
  follows : Coder.Follows devices base fleet.coder
  records : fleet.coder.Records path law
  stores : ∃ contents,
    base.Stores devices blocks limit contents ∧ files contents fleet.host

/-- The file at a path is the given blocks and nothing else. -/
def Keeps
    (base : Coder)
    (devices : Nat)
    (files : List Bytes → κ → Prop)
    (path : Path)
    (blocks : List Bytes)
    (fleet : Fleet κ) :
    Prop :=
  fleet.Rows base devices files path (Lays base.width (sizes blocks))
    (sizes blocks).sum blocks

/-- A block of the given length can be written behind the given blocks, and
will be the last one. -/
def Awaits
    (base : Coder)
    (devices : Nat)
    (files : List Bytes → κ → Prop)
    (path : Path)
    (blocks : List Bytes)
    (length : Nat)
    (fleet : Fleet κ) :
    Prop :=
  fleet.Rows base devices files path
    (fun extents => Continues base.width (sizes blocks) extents ∧
      extents.size ≤ (sizes blocks).sum + length)
    ((sizes blocks).sum + length) blocks

section Keeps

variable
  {base : Coder}
  {devices : Nat}
  {files : List Bytes → κ → Prop}
  {path : Path}
  {blocks front : List Bytes}
  {old : Bytes}
  {fleet : Fleet κ}

/-- A block can be appended. -/
theorem Keeps.awaits
    (keeps : fleet.Keeps base devices files path blocks)
    (length : Nat) :
    fleet.Awaits base devices files path blocks length := by
  rcases keeps with ⟨follows, records, contents, stores, held⟩
  refine ⟨follows, records.imp fun extents lays => ?_, contents, ?_, held⟩
  · exact ⟨lays.continues, lays.size ▸ Nat.le_add_right _ _⟩
  · exact stores.longer (Nat.le_add_right _ _)

/-- The last block can be written again if it does not get shorter. -/
theorem Keeps.awaits_last
    {length : Nat}
    (keeps : fleet.Keeps base devices files path (front ++ [old]))
    (longer : old.length ≤ length) :
    fleet.Awaits base devices files path front length := by
  rcases keeps with ⟨follows, records, contents, stores, held⟩
  have total : (sizes (front ++ [old])).sum ≤ (sizes front).sum + length := by
    simpa using longer
  refine ⟨follows, records.imp fun extents lays => ?_, contents, ?_, held⟩
  · refine ⟨?_, lays.size ▸ total⟩
    rw [sizes_append] at lays
    exact lays.continues_last
  · exact stores.of_append.longer total

end Keeps

end Fleet

namespace Devices

variable
  {devices : Devices κ}
  {fleet : Fleet κ}
  {places : List String}
  {Holds : List Descriptor → List Bytes → κ → Prop}
  {base : Coder}
  {path : Path}
  {opened : List Descriptor}
  {contents : List Bytes}
  {front behind : List Bytes}
  {block old : Bytes}

/-! ## Writing -/

/-- Fragments are written where the coder places them, whatever the files
contain. -/
theorem write_fragments_answers
    (serves : devices.backend.Serves places Holds)
    {offset : Nat}
    {pads fragments : List Bytes}
    {placement : Placement}
    {after : Coder → Prop}
    (encoded :
      (Coder.encode path block offset devices.count pads).Answers fleet.coder
        ⟨fragments, placement⟩ after)
    (nonempty : fragments ≠ [])
    (width : ∀ fragment ∈ fragments, fragment.length = placement.length)
    (paired : fragments.length = contents.length)
    (held : Holds opened contents fleet.host) :
    (devices.write path ⟨opened⟩ offset block pads).Answers fleet block.length
      (fun reached => after reached.coder ∧
        Holds opened (spliceAll contents placement.offset fragments)
          reached.host) := by
  have leading : Fanout.leading
      (fragments.map fun fragment => .written fragment.length) =
        placement.length := by
    obtain ⟨first, rest, rfl⟩ := List.exists_cons_of_ne_nil nonempty
    exact width first List.mem_cons_self
  rw [write]
  refine (Fleet.onCoder_answers encoded).bind fun middle placed => ?_
  rcases placed with ⟨recorded, host⟩
  rw [← host] at held
  refine (fanOut_write_answers serves paired width held).bind
    fun reached written => ?_
  dsimp only
  rw [leading, if_neg (Nat.lt_irrefl _)]
  exact .pure ⟨written.1 ▸ recorded, written.2⟩

/-- A block is split and its fragments are written, where the coder knows that
they go behind those of other blocks. -/
theorem write_answers
    (serves : devices.backend.Serves places Holds)
    (fits : fleet.coder.Fits devices.count)
    {pads : List Bytes}
    (nonempty : block ≠ [])
    (count : pads.length = fleet.coder.padCount devices.count)
    (same : ∀ pad ∈ pads, pad.length = block.length)
    (starts : fleet.coder.Records path fun extents =>
      extents.startFor? (sizes front).sum =
        some (reach fleet.coder.width (sizes front)))
    (files : contents.length = devices.count)
    (held : Holds opened contents fleet.host) :
    ∃ fragments,
      fleet.coder.Decodes devices.count fragments block ∧
        (devices.write path ⟨opened⟩ (sizes front).sum block pads).Answers
          fleet block.length
          (fun reached =>
            Coder.Follows devices.count fleet.coder reached.coder ∧
            (∀ law,
              fleet.coder.Records path (fun extents =>
                law (extents.record (sizes front).sum
                  ⟨reach fleet.coder.width (sizes front),
                    fleet.coder.width block.length, block.length⟩)) →
                reached.coder.Records path law) ∧
            Holds opened
              (spliceAll contents (reach fleet.coder.width (sizes front))
                fragments) reached.host) := by
  rcases Coder.encode_answers fits nonempty count same starts with
    ⟨fragments, placement, decodes, rfl, encoded⟩
  refine ⟨fragments, decodes, ?_⟩
  have some : fragments ≠ [] := by
    rw [← List.length_pos_iff, decodes.count]
    exact fits.devices_pos
  exact (write_fragments_answers serves encoded some decodes.length
    (decodes.count.trans files.symm) held).weaken
      fun reached ⟨⟨follows, recorded⟩, written⟩ => ⟨follows, recorded, written⟩

theorem write_awaited_answers
    (serves : devices.backend.Serves places Holds)
    {pads : List Bytes}
    (nonempty : block ≠ [])
    (count : pads.length = fleet.coder.padCount devices.count)
    (same : ∀ pad ∈ pads, pad.length = block.length)
    (awaits : fleet.Awaits base devices.count (Holds opened) path front
      block.length) :
    (devices.write path ⟨opened⟩ (sizes front).sum block pads).Answers fleet
      block.length
      (Fleet.Keeps base devices.count (Holds opened) path
        (front ++ [block])) := by
  rcases awaits with ⟨follows, records, contents, stores, held⟩
  have width := follows.width
  rcases
      write_answers serves follows.fits
        nonempty count same
        (records.imp fun extents known => by rw [width]; exact known.1.starts)
        stores.count held with
    ⟨fragments, decodes, answers⟩
  refine answers.weaken fun reached written => ?_
  rcases written with ⟨later, recorded, held⟩
  rw [width] at recorded held
  have wide := follows.fits.width_pos nonempty
  rw [width] at wide
  refine ⟨follows.trans later, ?_, _,
    stores.write (follows.decodes.mp decodes) wide (Nat.le_refl _), held⟩
  refine recorded _ (records.imp fun extents known => ?_)
  rw [sizes_append]
  exact known.1.record (List.length_pos_iff.mpr nonempty) known.2

theorem rewrite_answers
    (serves : devices.backend.Serves places Holds)
    {pads : List Bytes}
    (nonempty : block ≠ [])
    (count : pads.length = fleet.coder.padCount devices.count)
    (same : ∀ pad ∈ pads, pad.length = block.length)
    (unchanged : block.length = old.length)
    (keeps : fleet.Keeps base devices.count (Holds opened) path
      (front ++ old :: behind)) :
    (devices.write path ⟨opened⟩ (sizes front).sum block pads).Answers fleet
      block.length
      (Fleet.Keeps base devices.count (Holds opened) path
        (front ++ block :: behind)) := by
  rcases keeps with ⟨follows, records, contents, stores, held⟩
  rw [sizes_append, sizes_cons] at records
  have width := follows.width
  rcases
      write_answers serves follows.fits
        nonempty count same
        (records.imp fun extents lays => by rw [width]; exact lays.starts)
        stores.count held with
    ⟨fragments, decodes, answers⟩
  refine answers.weaken fun reached written => ?_
  rcases written with ⟨later, recorded, held⟩
  rw [width] at recorded held
  have wide := follows.fits.width_pos nonempty
  rw [width] at wide
  refine ⟨follows.trans later, ?_, _,
    stores.rewrite (follows.decodes.mp decodes) wide unchanged, held⟩
  refine recorded _ (records.imp fun extents lays => ?_)
  rw [sizes_append, sizes_cons, unchanged]
  exact lays.record_same

/-! ## Reading -/

/-- A block is read from its start, by asking for exactly its length, or for
more if it is the last one. -/
theorem read_answers
    (serves : devices.backend.Serves places Holds)
    {length : Nat}
    (nonempty : block ≠ [])
    (asked : length = block.length ∨ behind = [] ∧ block.length ≤ length)
    (keeps : fleet.Keeps base devices.count (Holds opened) path
      (front ++ block :: behind)) :
    (devices.read path ⟨opened⟩ (sizes front).sum length).Answers fleet block
      (Fleet.Keeps base devices.count (Holds opened) path
        (front ++ block :: behind)) := by
  rcases keeps with ⟨follows, records, contents, stores, held⟩
  have width := follows.width
  have located := records
  rw [sizes_append, sizes_cons, ← width] at located
  rcases Coder.locate_block located length with
    ⟨placement, found, starts, amount, known⟩
  rw [width] at starts amount
  rw [follows.mode] at amount
  have wide := follows.fits.width_pos nonempty
  rw [width] at wide
  have decodes := stores.slots_asked asked amount
  rw [← starts] at decodes
  have same : ∀ content ∈ contents,
      (content.slice placement.offset placement.length).length =
        base.width block.length :=
    fun content member =>
      decodes.length _ (List.mem_map.mpr ⟨content, member, rfl⟩)
  rcases stores.exists_first follows.fits.devices_pos with ⟨first, rest, split⟩
  have head := same first (split ▸ List.mem_cons_self)
  have requested : placement.length ≠ 0 := by
    intro zero
    rw [zero, Bytes.length_slice] at head
    omega
  rw [read]
  refine (Fleet.askCoder_answers found).bind fun middle kept => ?_
  subst kept
  dsimp only
  rw [if_neg requested]
  refine (fanOut_read_answers serves same held).bind fun reached served => ?_
  rcases served with ⟨kept, held⟩
  have fragments :
      (contents.map fun content => Outcome.data
          (content.slice placement.offset placement.length)).map (·.bytes) =
        contents.map (·.slice placement.offset placement.length) := by
    rw [List.map_map]
    rfl
  have filled :
      ((contents.map (·.slice placement.offset placement.length)).headD
        []).isEmpty = false := by
    rw [split, List.map_cons, List.headD_cons, ← Bool.not_eq_true,
      List.isEmpty_iff_length_eq_zero]
    omega
  have decoded := ((follows.decodes.mpr decodes).decode placement known)
  rw [← kept] at decoded
  rw [fragments, filled]
  refine (Fleet.askCoder_answers decoded).bind fun final same => ?_
  subst same
  have whole : block.take length = block := by
    refine List.take_of_length_le ?_
    cases asked with
    | inl exactly => exact Nat.le_of_eq exactly.symm
    | inr last => exact last.2
  rw [whole]
  exact .pure ⟨kept ▸ follows, kept ▸ records, contents, stores, held⟩

/-- Nothing is read at the end. -/
theorem read_end_answers
    (serves : devices.backend.Serves places Holds)
    {blocks : List Bytes}
    (length : Nat)
    (keeps : fleet.Keeps base devices.count (Holds opened) path blocks) :
    (devices.read path ⟨opened⟩ (sizes blocks).sum length).Answers fleet []
      (Fleet.Keeps base devices.count (Holds opened) path blocks) := by
  rcases keeps with ⟨follows, records, contents, stores, held⟩
  have located := records
  rw [← follows.width] at located
  rw [read]
  cases Coder.locate_end located length with
  | inl nothing =>
      refine (Fleet.askCoder_answers nothing).bind fun reached kept => ?_
      subst kept
      exact .pure ⟨follows, records, contents, stores, held⟩
  | inr place =>
      rcases place with ⟨plain, found⟩
      rw [follows.mode] at plain
      refine (Fleet.askCoder_answers found).bind fun middle kept => ?_
      subst kept
      dsimp only
      by_cases zero : length = 0
      · rw [if_pos zero]
        exact .pure ⟨follows, records, contents, stores, held⟩
      · rw [if_neg zero]
        have empty : ∀ content ∈ contents,
            content.slice (sizes blocks).sum length = [] :=
          fun content member => content.slice_eq_nil length
            (Nat.le_of_eq (stores.length_eq plain content member))
        refine (fanOut_read_answers serves
          (fun content member => congrArg List.length (empty content member))
          held).bind fun reached served => ?_
        rcases served with ⟨kept, held⟩
        have nothing :
            (((contents.map fun content => Outcome.data
              (content.slice (sizes blocks).sum length)).map
                (·.bytes)).headD []).isEmpty = true := by
          cases contents with
          | nil => rfl
          | cons first rest =>
              have none := empty first List.mem_cons_self
              simp [Outcome.bytes, none]
        rw [nothing]
        exact .pure ⟨kept ▸ follows, kept ▸ records, contents, stores, held⟩

/-! ## Cutting -/

theorem filePlaces_of_follows
    {coder : Coder}
    (follows : Coder.Follows devices.count base coder)
    (path : Path) :
    devices.filePlaces coder path = devices.filePlaces base path := by
  rw [filePlaces, filePlaces, follows.devicePath]

theorem length_filePlaces
    (coder : Coder)
    (path : Path) :
    (devices.filePlaces coder path).length = devices.count := by
  simp [filePlaces, count]

/-- A cut keeps the blocks that end before the new size, whatever becomes of
the one that it goes through. -/
theorem truncate_answers
    (serves : devices.backend.Serves (devices.filePlaces base path) Holds)
    {on : Option FileHandle}
    (own : on = none ∨ on = some ⟨opened⟩)
    {size : Nat}
    {law : FileExtents → Prop}
    (passed : (sizes front).sum ≤ size)
    (left : ∀ extents,
      Lays base.width (sizes front ++ sizes behind) extents →
        law (extents.cut size))
    (keeps : fleet.Keeps base devices.count (Holds opened) path
      (front ++ behind)) :
    (devices.truncate path on size).Answers fleet ()
      (Fleet.Rows base devices.count (Holds opened) path law size front) := by
  rcases keeps with ⟨follows, records, contents, stores, held⟩
  rw [sizes_append] at records
  rcases Coder.truncate_follows follows.fits path size with ⟨cutting, recorded⟩
  have later := follows.trans cutting
  have known := recorded law (records.imp left)
  have asked : ((Action.ofRun fun coder : Coder =>
      (.ok (coder.truncate path size).1, (coder.truncate path size).2) :
        Action Coder (Option Nat))).Answers fleet.coder
          (fleet.coder.truncate path size).1
          (· = (fleet.coder.truncate path size).2) :=
    ⟨_, rfl, rfl⟩
  have located := records
  rw [← follows.width] at located
  rw [truncate]
  refine (Fleet.onCoder_answers asked).bind fun middle moved => ?_
  rcases moved with ⟨coder, host⟩
  rw [← coder] at later known
  rw [← host] at held
  rcases Coder.truncate_cut follows.fits located passed with
    ⟨books, nothing⟩ | ⟨length, cut, kept, plain⟩
  · rw [nothing]
    rw [follows.mode] at books
    exact .pure ⟨later, known, contents,
      stores.of_append.of_erasure books size, held⟩
  · rw [cut]
    rw [follows.width] at kept
    rw [follows.mode] at plain
    have shorter := stores.of_append.cut kept fun other =>
      Nat.le_of_eq (plain other)
    have places : (devices.filePlaces base path).length = contents.length := by
      rw [length_filePlaces, stores.count]
    have done : ∀ reached : Fleet κ,
        reached.coder = middle.coder ∧
          Holds opened (contents.map (·.resize length)) reached.host →
            reached.Rows base devices.count (Holds opened) path law size
              front := by
      rintro reached ⟨same, holds⟩
      rw [← same] at later known
      exact ⟨later, known, _, shorter, holds⟩
    rcases own with rfl | rfl
    · have found : (files devices path).Answers middle
          (devices.filePlaces base path) (· = middle) := by
        rw [← filePlaces_of_follows later path]
        exact Fleet.askCoder_answers rfl
      refine found.bind fun final same => ?_
      subst same
      exact (fanOutDone_truncate_answers serves length places held).weaken done
    · exact (onHandle_truncate_answers serves length held).weaken done

/-- A cut at the start of a block keeps the blocks before it. -/
theorem truncate_start_answers
    (serves : devices.backend.Serves (devices.filePlaces base path) Holds)
    {on : Option FileHandle}
    (own : on = none ∨ on = some ⟨opened⟩)
    (keeps : fleet.Keeps base devices.count (Holds opened) path
      (front ++ behind)) :
    (devices.truncate path on (sizes front).sum).Answers fleet ()
      (Fleet.Keeps base devices.count (Holds opened) path front) :=
  truncate_answers serves own (Nat.le_refl _) (fun _ lays => lays.cut) keeps

/-- After a cut inside a block the rest of that block can be written. -/
theorem truncate_inside_answers
    (serves : devices.backend.Serves (devices.filePlaces base path) Holds)
    {on : Option FileHandle}
    (own : on = none ∨ on = some ⟨opened⟩)
    {kept : Nat}
    (some : 0 < kept)
    (inside : kept < block.length)
    (keeps : fleet.Keeps base devices.count (Holds opened) path
      (front ++ block :: behind)) :
    (devices.truncate path on ((sizes front).sum + kept)).Answers fleet ()
      (Fleet.Awaits base devices.count (Holds opened) path front kept) :=
  truncate_answers serves own (Nat.le_add_right _ _)
    (fun _ lays => ⟨lays.cut_inside some inside, Nat.le_refl _⟩) keeps

/-! ## Sizes -/

/-- The first device is asked about the file of a path. -/
theorem primaryAttributes_answers
    {found : Attributes}
    (some : 0 < devices.count)
    (answered : ∀ place,
      (devices.filePlaces fleet.coder path)[0]? = .some place →
        devices.backend.attributes place fleet.host = .ok found) :
    (devices.primaryAttributes path).Answers fleet found (· = fleet) := by
  cases roots : devices.roots with
  | nil =>
      rw [count, roots, List.length_nil] at some
      cases some
  | cons root rest =>
      have first := answered (resolve root (fleet.coder.devicePath path 0))
        (by simp [filePlaces, roots])
      have primary : devices.primary = .ok root := by rw [primary, roots]
      rw [primaryAttributes, primary]
      refine (Action.Answers.ofExcept rfl).bind fun middle kept => ?_
      subst kept
      refine (Fleet.askCoder_answers rfl).bind fun final kept => ?_
      subst kept
      exact Fleet.askHost_answers (by rw [first])

/-- What is known about a file that is there, asked by path or handle.
Whatever the first device says of the size, the coder has the last word. -/
theorem attributes_held_answers
    (serves : devices.backend.Serves (devices.filePlaces fleet.coder path)
      Holds)
    {on : Option FileHandle}
    (own : on = none ∨ on = some ⟨opened⟩)
    (rows : contents.length = devices.count)
    (some : 0 < devices.count)
    (held : Holds opened contents fleet.host) :
    ∃ found, ∃ content ∈ contents,
      found.size = (fleet.coder.trackedSize? path).getD content.length ∧
        (devices.attributes path on).Answers fleet found (· = fleet) := by
  rcases List.exists_cons_of_length_pos (rows ▸ some) with
    ⟨content, rest, split⟩
  have first : contents[0]? = .some content := by rw [split]; rfl
  have member : content ∈ contents := split ▸ List.mem_cons_self
  have sized {found : Attributes}
      (regular : found.isFile = true)
      (size : found.size = content.length) :
      Action.Answers
        (do
          if found.isFile then
            let tracked ← Fleet.askCoder fun coder =>
              .ok (coder.trackedSize? path)
            return { found with size := tracked.getD found.size }
          else
            return found)
        fleet
        { found with
          size := (fleet.coder.trackedSize? path).getD content.length }
        (· = fleet) := by
    have asked : (Fleet.askCoder fun coder =>
        .ok (coder.trackedSize? path)).Answers fleet
          (fleet.coder.trackedSize? path) (· = fleet) :=
      Fleet.askCoder_answers rfl
    rw [if_pos regular, ← size]
    exact asked.bind fun reached kept => .pure kept
  rcases own with rfl | rfl
  · obtain ⟨place, places⟩ :
        ∃ place, (devices.filePlaces fleet.coder path)[0]? = .some place :=
      ⟨_, List.getElem?_eq_getElem (by rwa [length_filePlaces])⟩
    rcases
        serves.attributes 0 place content opened contents _ held places
          first with
      ⟨found, answered, regular, size⟩
    have primary : (devices.primaryAttributes path).Answers fleet found
        (· = fleet) := by
      refine primaryAttributes_answers some ?_
      intro other same
      exact Option.some.inj (places.symm.trans same) ▸ answered
    refine ⟨{ found with size := _ }, content, member, rfl,
      primary.bind fun middle kept => ?_⟩
    subst kept
    exact sized regular size
  · obtain ⟨file, files, opens⟩ : ∃ first rest, opened = first :: rest := by
      refine List.exists_cons_of_length_pos ?_
      rw [serves.opened _ _ _ held, rows]
      exact some
    rcases
        serves.openedAttributes 0 file content opened contents _ held
          (by rw [opens]; rfl) first with
      ⟨found, answered, regular, size⟩
    have handled : (Option.some (FileHandle.mk opened)).bind
        (·.descriptors.head?) = .some file := by
      rw [opens]
      rfl
    refine ⟨{ found with size := _ }, content, member, rfl, ?_⟩
    rw [attributes, handled]
    refine (Fleet.askHost_answers answered).bind fun middle kept => ?_
    subst kept
    exact sized regular size

/-- The size of the file is that of its blocks, asked by path or handle. -/
theorem attributes_answers
    (serves : devices.backend.Serves (devices.filePlaces base path) Holds)
    {on : Option FileHandle}
    (own : on = none ∨ on = some ⟨opened⟩)
    {blocks : List Bytes}
    (keeps : fleet.Keeps base devices.count (Holds opened) path blocks) :
    ∃ found, found.size = (sizes blocks).sum ∧
      (devices.attributes path on).Answers fleet found
        (Fleet.Keeps base devices.count (Holds opened) path blocks) := by
  have whole := keeps
  rcases keeps with ⟨follows, records, contents, stores, held⟩
  rw [← filePlaces_of_follows follows path] at serves
  rcases attributes_held_answers serves own stores.count
      follows.fits.devices_pos held with
    ⟨found, content, member, size, answers⟩
  rw [← follows.width] at records
  refine ⟨found, size.trans (Coder.trackedSize_getD records fun plain => ?_),
    answers.weaken fun reached kept => kept ▸ whole⟩
  rw [follows.mode] at plain
  exact stores.length_eq plain content member

end Devices

end Strata
