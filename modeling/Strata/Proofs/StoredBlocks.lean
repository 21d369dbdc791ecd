import Strata.Proofs.PlacedBlocks

/-!
# Blocks in device files

The device files store a row of blocks when the fragments of each block lie
behind those of the blocks before it, at the same place in every file.  Writing
fragments leaves the slots before and behind them alone, and cutting the files
leaves those before the cut.
-/

namespace Strata

open FileExtents (reach)

/-- The lengths of blocks. -/
def sizes
    (blocks : List Bytes) :
    List Nat :=
  blocks.map List.length

@[simp]
theorem sizes_nil :
    sizes [] = [] :=
  rfl

@[simp]
theorem sizes_cons
    (block : Bytes)
    (rest : List Bytes) :
    sizes (block :: rest) = block.length :: sizes rest :=
  rfl

@[simp]
theorem sizes_append
    (front behind : List Bytes) :
    sizes (front ++ behind) = sizes front ++ sizes behind :=
  List.map_append

theorem length_flatten
    (blocks : List Bytes) :
    blocks.flatten.length = (sizes blocks).sum :=
  List.length_flatten

/-! ## Writing to every device file -/

/-- The device files with one fragment written over each. -/
def spliceAll
    (contents : List Bytes)
    (start : Nat)
    (fragments : List Bytes) :
    List Bytes :=
  List.zipWith (fun content fragment => content.splice start fragment)
    contents fragments

section SpliceAll

variable
  {contents fragments : List Bytes}
  {start first length : Nat}

theorem length_spliceAll
    (count : fragments.length = contents.length) :
    (spliceAll contents start fragments).length = contents.length := by
  simp [spliceAll, count]

theorem length_of_mem_spliceAll
    {width wide : Nat}
    (same : ∀ content ∈ contents, content.length = width)
    (each : ∀ fragment ∈ fragments, fragment.length = wide)
    (some : 0 < wide) :
    ∀ content ∈ spliceAll contents start fragments,
      content.length = max width (start + wide) := by
  intro content member
  rcases List.mem_iff_getElem?.mp member with ⟨device, found⟩
  rw [spliceAll, List.getElem?_zipWith_eq_some] at found
  rcases found with ⟨old, fragment, before, given, rfl⟩
  have long := each fragment (List.mem_of_getElem? given)
  have filled : fragment ≠ [] := List.length_pos_iff.mp (long ▸ some)
  rw [Bytes.length_splice, if_neg filled, long,
    same old (List.mem_of_getElem? before)]

/-- Two rows of device files that have the same range on each device. -/
theorem map_slice_spliceAll
    (count : fragments.length = contents.length)
    (same : ∀ content ∈ contents, ∀ fragment ∈ fragments,
      (content.splice start fragment).slice first length =
        content.slice first length) :
    (spliceAll contents start fragments).map (·.slice first length) =
      contents.map (·.slice first length) := by
  apply List.ext_getElem
  · rw [List.length_map, List.length_map, length_spliceAll count]
  · intro device inside there
    simp only [spliceAll, List.getElem_map, List.getElem_zipWith]
    exact same _ (List.getElem_mem _) _ (List.getElem_mem _)

theorem map_slice_spliceAll_before
    (count : fragments.length = contents.length)
    (reached : ∀ content ∈ contents, start ≤ content.length)
    (before : first + length ≤ start) :
    (spliceAll contents start fragments).map (·.slice first length) =
      contents.map (·.slice first length) :=
  map_slice_spliceAll count fun content member fragment _ =>
    content.slice_splice_before fragment before (reached content member)

theorem map_slice_spliceAll_behind
    (count : fragments.length = contents.length)
    (behind : ∀ fragment ∈ fragments, start + fragment.length ≤ first) :
    (spliceAll contents start fragments).map (·.slice first length) =
      contents.map (·.slice first length) :=
  map_slice_spliceAll count fun content _ fragment member =>
    content.slice_splice_behind fragment (behind fragment member)

theorem map_slice_spliceAll_self
    (count : fragments.length = contents.length)
    (long : 0 < length)
    (same : ∀ fragment ∈ fragments, fragment.length = length) :
    (spliceAll contents start fragments).map (·.slice start length) =
      fragments := by
  apply List.ext_getElem
  · rw [List.length_map, length_spliceAll count, count]
  · intro device inside there
    have exactly := same _ (List.getElem_mem there)
    simp only [spliceAll, List.getElem_map, List.getElem_zipWith]
    refine Bytes.slice_splice_self _ ?_ (Nat.le_of_eq exactly)
      (.inl exactly)
    exact List.length_pos_iff.mp (exactly ▸ long)

end SpliceAll

namespace Coder

variable
  {coder : Coder}
  {devices : Nat}
  {contents changed fragments : List Bytes}
  {blocks front behind : List Bytes}
  {old block : Bytes}
  {start limit : Nat}

/-- Whether the fragments of blocks lie behind each other from a start on. -/
def StoredFrom
    (coder : Coder)
    (devices : Nat)
    (contents : List Bytes) :
    (start : Nat) → List Bytes → Prop
  | _, [] => True
  | start, block :: rest =>
    coder.Decodes devices
        (contents.map (·.slice start (coder.width block.length))) block ∧
      StoredFrom coder devices contents
        (start + coder.width block.length) rest

theorem storedFrom_append :
    coder.StoredFrom devices contents start (front ++ behind) ↔
      coder.StoredFrom devices contents start front ∧
        coder.StoredFrom devices contents
          (start + reach coder.width (sizes front)) behind := by
  induction front generalizing start with
  | nil => simp [StoredFrom]
  | cons block rest ih =>
      simp only [List.cons_append, StoredFrom, ih, sizes_cons,
        FileExtents.reach_cons, Nat.add_assoc, and_assoc]

/-- Blocks stay stored while nothing changes in their slots. -/
theorem StoredFrom.frame
    (stored : coder.StoredFrom devices contents start blocks)
    (same : ∀ first length, start ≤ first →
      first + length ≤ start + reach coder.width (sizes blocks) →
        changed.map (·.slice first length) =
          contents.map (·.slice first length)) :
    coder.StoredFrom devices changed start blocks := by
  induction blocks generalizing start with
  | nil => trivial
  | cons block rest ih =>
      rcases stored with ⟨decodes, others⟩
      simp only [sizes_cons, FileExtents.reach_cons] at same
      refine ⟨?_, ih others ?_⟩
      · rw [same start _ (Nat.le_refl _) (by omega)]
        exact decodes
      · intro first length later inside
        exact same first length (by omega) (by omega)

/-- Every device file is long enough for the blocks that it stores. -/
theorem StoredFrom.reach_le
    (stored : coder.StoredFrom devices contents start blocks)
    (before : ∀ content ∈ contents, start ≤ content.length) :
    ∀ content ∈ contents,
      start + reach coder.width (sizes blocks) ≤ content.length := by
  induction blocks generalizing start with
  | nil => exact before
  | cons block rest ih =>
      rcases stored with ⟨decodes, others⟩
      have longer : ∀ content ∈ contents,
          start + coder.width block.length ≤ content.length := by
        intro content member
        have slot := decodes.length _
          (List.mem_map.mpr ⟨content, member, rfl⟩)
        have reached := before content member
        rw [Bytes.length_slice] at slot
        omega
      intro content member
      have whole := ih others longer content member
      rw [sizes_cons, FileExtents.reach_cons]
      omega

/--
The device files store blocks, from the start of each file on.  Without books
no file is longer than `limit`, which is the length of the blocks unless the
block behind them is about to be written.
-/
structure Stores
    (coder : Coder)
    (devices : Nat)
    (blocks : List Bytes)
    (limit : Nat)
    (contents : List Bytes) :
    Prop where
  count : contents.length = devices
  stored : coder.StoredFrom devices contents 0 blocks
  within : coder.mode ≠ .erasure →
    ∀ content ∈ contents, content.length ≤ limit

namespace Stores

theorem nil
    (coder : Coder)
    (devices limit : Nat) :
    coder.Stores devices [] limit (List.replicate devices []) where
  count := List.length_replicate
  stored := trivial
  within := by
    intro _ content member
    rw [List.eq_of_mem_replicate member]
    exact Nat.zero_le _

theorem reach_le
    (stores : coder.Stores devices blocks limit contents) :
    ∀ content ∈ contents,
      reach coder.width (sizes blocks) ≤ content.length := by
  have long := stores.stored.reach_le fun _ _ => Nat.zero_le _
  simpa using long

theorem of_append
    (stores : coder.Stores devices (front ++ behind) limit contents) :
    coder.Stores devices front limit contents where
  count := stores.count
  stored := (storedFrom_append.mp stores.stored).1
  within := stores.within

theorem longer
    {other : Nat}
    (stores : coder.Stores devices blocks limit contents)
    (below : limit ≤ other) :
    coder.Stores devices blocks other contents where
  count := stores.count
  stored := stores.stored
  within plain content member :=
    Nat.le_trans (stores.within plain content member) below

/-- With books nothing depends on how long the device files are. -/
theorem of_erasure
    (stores : coder.Stores devices blocks limit contents)
    (books : coder.mode = .erasure)
    (other : Nat) :
    coder.Stores devices blocks other contents where
  count := stores.count
  stored := stores.stored
  within plain := absurd books plain

/-- Without books the device files are as long as the blocks together. -/
theorem length_eq
    (stores : coder.Stores devices blocks (sizes blocks).sum contents)
    (plain : coder.mode ≠ .erasure) :
    ∀ content ∈ contents, content.length = (sizes blocks).sum := by
  intro content member
  have below := stores.within plain content member
  have above := stores.reach_le content member
  rw [width_of_plain plain, reach_id] at above
  exact Nat.le_antisymm below above

/-- How long the device files get without books. -/
theorem within_spliceAll
    {finish : Nat}
    (stores : coder.Stores devices blocks limit contents)
    (decodes : coder.Decodes devices fragments block)
    (plain : coder.mode ≠ .erasure)
    (covers : limit ≤ finish)
    (ends : start + block.length ≤ finish) :
    ∀ content ∈ spliceAll contents start fragments,
      content.length ≤ finish := by
  intro content member
  rcases List.getElem_of_mem member with ⟨device, inside, rfl⟩
  have whole := stores.within plain
  have long := decodes.length
  rw [width_of_plain plain] at long
  simp only [spliceAll, List.length_zipWith] at inside
  have old := whole _ (List.getElem_mem (by omega) : contents[device] ∈ _)
  have new := long _ (List.getElem_mem (by omega) : fragments[device] ∈ _)
  simp only [spliceAll, List.getElem_zipWith, Bytes.length_splice, id] at new ⊢
  split <;> omega

/-- The fragments of a block are written behind those of other blocks. -/
theorem write
    (stores : coder.Stores devices front limit contents)
    (decodes : coder.Decodes devices fragments block)
    (wide : 0 < coder.width block.length)
    (covers : limit ≤ (sizes front).sum + block.length) :
    coder.Stores devices (front ++ [block]) (sizes (front ++ [block])).sum
      (spliceAll contents (reach coder.width (sizes front)) fragments) := by
  have count : fragments.length = contents.length :=
    decodes.count.trans stores.count.symm
  constructor
  case count => rw [length_spliceAll count, stores.count]
  case stored =>
    rw [storedFrom_append, Nat.zero_add]
    refine ⟨stores.stored.frame fun first length _ before => ?_, ?_, trivial⟩
    · rw [Nat.zero_add] at before
      exact map_slice_spliceAll_before count stores.reach_le before
    · rw [map_slice_spliceAll_self count wide decodes.length]
      exact decodes
  case within =>
    intro plain
    have ends : (sizes (front ++ [block])).sum =
        (sizes front).sum + block.length := by
      simp
    refine stores.within_spliceAll decodes plain (ends ▸ covers) ?_
    exact Nat.le_of_eq (by rw [width_of_plain plain, reach_id, ends])

/-- The fragments of a block are written over those of a block of the same
length. -/
theorem rewrite
    (stores : coder.Stores devices (front ++ old :: behind)
      (sizes (front ++ old :: behind)).sum contents)
    (decodes : coder.Decodes devices fragments block)
    (wide : 0 < coder.width block.length)
    (same : block.length = old.length) :
    coder.Stores devices (front ++ block :: behind)
      (sizes (front ++ block :: behind)).sum
      (spliceAll contents (reach coder.width (sizes front)) fragments) := by
  have count : fragments.length = contents.length :=
    decodes.count.trans stores.count.symm
  have total : (sizes (front ++ block :: behind)).sum =
      (sizes (front ++ old :: behind)).sum := by
    simp [same]
  rcases storedFrom_append.mp stores.stored with ⟨before, slot, later⟩
  constructor
  case count => rw [length_spliceAll count, stores.count]
  case stored =>
    rw [storedFrom_append]
    refine ⟨before.frame fun first length _ inside => ?_, ?_, ?_⟩
    · rw [Nat.zero_add] at inside
      exact map_slice_spliceAll_before count
        stores.of_append.reach_le inside
    · rw [Nat.zero_add, map_slice_spliceAll_self count wide decodes.length]
      exact decodes
    · rw [same]
      refine later.frame fun first length past _ => ?_
      refine map_slice_spliceAll_behind count fun fragment member => ?_
      rw [decodes.length fragment member, same]
      omega
  case within =>
    intro plain
    refine stores.within_spliceAll decodes plain (Nat.le_of_eq total.symm) ?_
    rw [width_of_plain plain, reach_id]
    simp only [sizes_append, sizes_cons, List.sum_append, List.sum_cons]
    omega

/-- The device files are cut behind the fragments of some blocks. -/
theorem cut
    {length finish : Nat}
    (stores : coder.Stores devices front limit contents)
    (kept : reach coder.width (sizes front) ≤ length)
    (within : coder.mode ≠ .erasure → length ≤ finish) :
    coder.Stores devices front finish (contents.map (·.resize length)) := by
  constructor
  case count => rw [List.length_map, stores.count]
  case stored =>
    refine stores.stored.frame fun first count _ inside => ?_
    rw [Nat.zero_add] at inside
    rw [List.map_map]
    refine List.map_congr_left fun content member => ?_
    exact content.slice_resize (Nat.le_trans inside kept)
      (Nat.le_trans inside (stores.reach_le content member))
  case within =>
    intro plain content member
    rcases List.mem_map.mp member with ⟨old, among, rfl⟩
    rw [Bytes.length_resize]
    exact within plain

/-- There is a first device. -/
theorem exists_first
    (stores : coder.Stores devices blocks limit contents)
    (some : 0 < devices) :
    ∃ first rest, contents = first :: rest :=
  List.exists_cons_of_length_pos (stores.count ▸ some)

/-- The fragments of a block are in its slots. -/
theorem slots
    (stores : coder.Stores devices (front ++ block :: behind) limit contents) :
    coder.Decodes devices
      (contents.map (·.slice (reach coder.width (sizes front))
        (coder.width block.length))) block := by
  have slot := (storedFrom_append.mp stores.stored).2.1
  rwa [Nat.zero_add] at slot

/-- Without books the last block is also read by asking for more than is
stored, and any block by asking for its length. -/
theorem slots_asked
    {length read : Nat}
    (stores : coder.Stores devices (front ++ block :: behind)
      (sizes (front ++ block :: behind)).sum contents)
    (asked : length = block.length ∨ behind = [] ∧ block.length ≤ length)
    (request : read = coder.width block.length ∨
      coder.mode ≠ .erasure ∧ read = length) :
    coder.Decodes devices
      (contents.map (·.slice (reach coder.width (sizes front)) read))
      block := by
  have same : ∀ content ∈ contents,
      content.slice (reach coder.width (sizes front)) read =
        content.slice (reach coder.width (sizes front))
          (coder.width block.length) := by
    intro content member
    cases request with
    | inl exactly => rw [exactly]
    | inr request =>
        rcases request with ⟨plain, rfl⟩
        have long := stores.length_eq plain content member
        rw [width_of_plain plain, reach_id]
        simp only [sizes_append, sizes_cons, List.sum_append,
          List.sum_cons] at long
        refine content.slice_eq_slice ?_
        cases asked with
        | inl exactly => exact .inl exactly
        | inr last =>
            rcases last with ⟨rfl, longer⟩
            simp only [sizes_nil, List.sum_nil] at long
            refine .inr ⟨?_, ?_⟩
            · omega
            · simp only [id]
              omega
  rw [List.map_congr_left same]
  exact stores.slots

end Stores

end Coder

end Strata
