import Strata.Coding.Coder
import Strata.Crypto.Aead
import Strata.Proofs.Execution
import Strata.Proofs.Ranges

/-!
# Fragments of blocks

Each coder turns a block into one fragment for each device, all of the same
length, and gives the block back from all of them.  What a coder has recorded
plays no part in this.
-/

namespace Strata

/-! ## Pads and a share -/

namespace Xor

variable
  {block : Bytes}
  {pads : List Bytes}

theorem length_foldl_xor
    (same : ∀ pad ∈ pads, pad.length = block.length) :
    (pads.foldl Bytes.xor block).length = block.length := by
  induction pads generalizing block with
  | nil => rfl
  | cons pad rest ih =>
      have first := same pad List.mem_cons_self
      have masked : (Bytes.xor block pad).length = block.length := by
        simp [first]
      rw [List.foldl_cons, ih, masked]
      intro other member
      rw [masked]
      exact same other (List.mem_cons_of_mem _ member)

theorem xor_assoc
    (first second third : Bytes) :
    Bytes.xor (Bytes.xor first second) third =
      Bytes.xor first (Bytes.xor second third) := by
  apply List.ext_getElem?
  intro position
  simp only [Bytes.xor, List.getElem?_zipWith]
  cases first[position]? <;> cases second[position]? <;>
    cases third[position]? <;> simp [UInt8.xor_assoc]

theorem xor_comm
    (first second : Bytes) :
    Bytes.xor first second = Bytes.xor second first :=
  List.zipWith_comm_of_comm UInt8.xor_comm

/-- A mask that is put on first stays outermost. -/
theorem foldl_xor_xor
    (mask : Bytes) :
    pads.foldl Bytes.xor (Bytes.xor block mask) =
      Bytes.xor block (pads.foldl Bytes.xor mask) := by
  induction pads generalizing mask with
  | nil => rfl
  | cons pad rest ih =>
      rw [List.foldl_cons, List.foldl_cons, xor_assoc, ih]

theorem recombine_of_length
    (same : ∀ fragment ∈ pads, fragment.length = block.length) :
    recombine block pads = .ok (pads.foldl Bytes.xor block) := by
  induction pads generalizing block with
  | nil => rfl
  | cons fragment rest ih =>
      have first := same fragment List.mem_cons_self
      rw [recombine, if_neg (by simp [first]), ih, List.foldl_cons]
      intro other member
      simp [same other (List.mem_cons_of_mem _ member), first]

/-- All fragments together give the block back. -/
theorem decode_split
    (nonempty : pads ≠ [])
    (same : ∀ pad ∈ pads, pad.length = block.length) :
    decode (split block pads) = .ok block := by
  cases pads with
  | nil => exact absurd rfl nonempty
  | cons first rest =>
      have head := same first List.mem_cons_self
      have others : ∀ pad ∈ rest, pad.length = first.length :=
        fun pad member =>
          (same pad (List.mem_cons_of_mem _ member)).trans head.symm
      have share := length_foldl_xor same
      have mask := length_foldl_xor others
      rw [split, List.cons_append, decode, recombine_of_length,
        List.foldl_append, List.foldl_cons, List.foldl_cons, List.foldl_nil,
        foldl_xor_xor]
      · have cancelled :
            Bytes.xor (rest.foldl Bytes.xor first)
              (Bytes.xor block (rest.foldl Bytes.xor first)) = block := by
          rw [xor_comm]
          exact Aead.xor_xor_cancel _ _ (Nat.le_of_eq (mask.trans head).symm)
        rw [cancelled]
      · intro fragment member
        cases List.mem_append.mp member with
        | inl pad => exact others fragment pad
        | inr last => rw [List.mem_singleton.mp last, share, head]

end Xor

/-! ## Shards -/

namespace ReedSolomon

variable
  {code : ReedSolomon}
  {shards : List Bytes}
  {length : Nat}

theorem length_combine
    (weights : List UInt8)
    (same : ∀ shard ∈ shards, shard.length = length) :
    (combine length weights shards).length = length := by
  have each : ∀ pair ∈ weights.zip shards, pair.2.length = length :=
    fun pair member => same pair.2 (List.of_mem_zip member).2
  have long : (Bytes.zeros length).length = length := Bytes.length_zeros _
  unfold combine
  revert each long
  generalize weights.zip shards = pairs
  generalize Bytes.zeros length = sum
  induction pairs generalizing sum with
  | nil => exact fun _ long => long
  | cons pair rest ih =>
      intro each long
      refine ih _ (fun other member =>
        each other (List.mem_cons_of_mem _ member)) ?_
      have first := each pair List.mem_cons_self
      simp [long, first]

/-- What a code that was made for numbers of shards is. -/
theorem eq_of_ofShape
    {data parity : Nat}
    (shape : ofShape data parity = .ok code) :
    data + parity ≤ 256 ∧ code.data = data ∧ code.parity = parity ∧
      code.parityWeights = (List.range parity).map fun shard =>
        weights ((List.range data).map pointOf) (pointOf (data + shard)) := by
  unfold ofShape at shape
  split at shape
  · cases shape
  · rename_i few
    cases shape
    refine ⟨by omega, rfl, rfl, ?_⟩
    rw [List.map_map]
    rfl

theorem length_parityWeights
    {data parity : Nat}
    (shape : ofShape data parity = .ok code) :
    code.parityWeights.length = code.parity := by
  rcases eq_of_ofShape shape with ⟨-, -, count, weights⟩
  rw [weights, List.length_map, List.length_range, count]

/-- Shards of one length are encoded as they are, followed by a parity shard
of that length for each row of weights. -/
theorem encode_of_length
    (code : ReedSolomon)
    (nonempty : shards ≠ [])
    (long : 0 < length)
    (same : ∀ shard ∈ shards, shard.length = length) :
    ∃ parity,
      code.encode shards = .ok (shards ++ parity) ∧
        parity.length = code.parityWeights.length ∧
        ∀ shard ∈ parity, shard.length = length := by
  cases shards with
  | nil => exact absurd rfl nonempty
  | cons first rest =>
      have head : first.length = length := same first List.mem_cons_self
      refine ⟨code.parityWeights.map fun weights =>
        combine length weights (first :: rest), ?_, List.length_map _, ?_⟩
      · have full : length ≠ 0 := by omega
        simp only [encode, List.headD_cons, head, if_neg full]
      · intro shard member
        rcases List.mem_map.mp member with ⟨weights, among, rfl⟩
        exact length_combine weights same

theorem map_snd_present
    (shards : List Bytes) :
    (present (shards.map some)).map (·.2) = shards := by
  unfold present
  generalize 0 = first
  induction shards generalizing first with
  | nil => rfl
  | cons shard rest ih =>
      rw [List.map_cons, List.zipIdx_cons, List.filterMap_cons]
      simp [ih]

theorem lengthFault?_of_length
    (long : 0 < length)
    (same : ∀ shard ∈ shards, shard.length = length) :
    lengthFault? shards = none := by
  cases shards with
  | nil => rfl
  | cons first rest =>
      have head : first.length = length := same first List.mem_cons_self
      rw [lengthFault?, if_neg (by omega), List.findSome?_eq_none_iff]
      intro shard member
      have other := same shard (List.mem_cons_of_mem _ member)
      rw [if_neg (by omega), if_neg (by omega)]

/-- Where no shard is missing the data shards are taken as they are. -/
theorem reconstruct_of_length
    (enough : code.data ≤ shards.length)
    (long : 0 < length)
    (same : ∀ shard ∈ shards, shard.length = length) :
    code.reconstruct (shards.map some) = .ok (shards.take code.data) := by
  have count : (present (shards.map some)).length = shards.length := by
    rw [← List.length_map (·.2), map_snd_present]
  unfold reconstruct
  simp only [map_snd_present, lengthFault?_of_length long same, count,
    if_neg (Nat.not_lt.mpr enough)]
  congr 1
  apply List.ext_getElem (by simp [enough])
  intro index inRange _
  have there : index < shards.length := by
    simp only [List.length_map, List.length_range] at inRange
    omega
  simp [dataShard, List.getElem?_map, List.getElem?_eq_getElem there]

end ReedSolomon

namespace ErasureCoder

variable
  {coder : ErasureCoder}
  {block : Bytes}

theorem fragmentLength_pos
    (shaped : 0 < coder.code.data)
    {length : Nat}
    (long : 0 < length) :
    0 < coder.fragmentLength length :=
  Nat.div_pos (by omega) shaped

theorem le_mul_fragmentLength
    (shaped : 0 < coder.code.data)
    (length : Nat) :
    length ≤ coder.code.data * coder.fragmentLength length := by
  have parts := Nat.div_add_mod (length + coder.code.data - 1) coder.code.data
  have rest := Nat.mod_lt (length + coder.code.data - 1) shaped
  unfold fragmentLength
  omega

theorem length_of_mem_dataShards
    {shard : Bytes}
    (member : shard ∈ coder.dataShards block) :
    shard.length = coder.fragmentLength block.length := by
  rcases List.mem_map.mp member with ⟨index, inRange, rfl⟩
  exact Bytes.length_resize _ _

theorem length_dataShards
    (coder : ErasureCoder)
    (block : Bytes) :
    (coder.dataShards block).length = coder.code.data := by
  simp [dataShards]

/-- The data shards are the block filled up with zeros. -/
theorem flatten_dataShards
    (coder : ErasureCoder)
    (block : Bytes) :
    (coder.dataShards block).flatten =
      block.resize (coder.code.data * coder.fragmentLength block.length) := by
  unfold dataShards
  generalize coder.fragmentLength block.length = length
  induction coder.code.data with
  | zero => simp [Bytes.resize, Bytes.zeros]
  | succ count ih =>
      rw [List.range_succ, List.map_append, List.flatten_append, ih,
        List.map_singleton, List.flatten_singleton,
        Bytes.resize_append_resize_slice, Nat.succ_mul]

/-- The fragments of a block are its data shards and as many parity shards as
there are to be, all of one length. -/
theorem exists_fragments
    (shaped : 0 < coder.code.data)
    (parity : coder.code.parityWeights.length = coder.code.parity)
    (nonempty : block ≠ []) :
    ∃ rest,
      coder.fragments block = .ok (coder.dataShards block ++ rest) ∧
        (coder.dataShards block ++ rest).length = coder.total ∧
        ∀ fragment ∈ coder.dataShards block ++ rest,
          fragment.length = coder.fragmentLength block.length := by
  have long :=
    coder.fragmentLength_pos shaped (List.length_pos_iff.mpr nonempty)
  have shards := length_dataShards coder block
  have data : coder.dataShards block ≠ [] := by
    intro empty
    rw [empty, List.length_nil] at shards
    omega
  rcases
      ReedSolomon.encode_of_length coder.code data long
        fun shard member => length_of_mem_dataShards member with
    ⟨rest, encoded, count, same⟩
  refine ⟨rest, by rw [fragments, encoded]; rfl, ?_, ?_⟩
  · rw [List.length_append, shards, count, parity]
    rfl
  · intro fragment member
    cases List.mem_append.mp member with
    | inl shard => exact length_of_mem_dataShards shard
    | inr shard => exact same fragment shard

/-- The data shards have all of a block in them. -/
theorem take_flatten_dataShards
    (shaped : 0 < coder.code.data)
    (block : Bytes) :
    (coder.dataShards block).flatten.take block.length = block := by
  rw [flatten_dataShards,
    Bytes.take_resize block (coder.le_mul_fragmentLength shaped block.length)]

/-- A block is split unless it is empty, and its fragments give it back. -/
theorem decode_fragments
    (shaped : 0 < coder.code.data)
    (parity : coder.code.parityWeights.length = coder.code.parity)
    (nonempty : block ≠ []) :
    ∃ fragments,
      coder.fragments block = .ok fragments ∧
        fragments.length = coder.total ∧
        (∀ fragment ∈ fragments,
          fragment.length = coder.fragmentLength block.length) ∧
        coder.decode (fragments.map .some) block.length = .ok block := by
  rcases exists_fragments shaped parity nonempty with
    ⟨rest, split, total, each⟩
  refine ⟨_, split, total, each, ?_⟩
  have shards := length_dataShards coder block
  have enough : coder.code.data ≤ (coder.dataShards block ++ rest).length := by
    rw [List.length_append]
    omega
  have rebuilt := ReedSolomon.reconstruct_of_length enough
    (coder.fragmentLength_pos shaped (List.length_pos_iff.mpr nonempty)) each
  rw [List.take_left' shards] at rebuilt
  rw [decode, if_neg (by simpa using total), rebuilt]
  exact congrArg Except.ok (take_flatten_dataShards shaped block)

end ErasureCoder

/-! ## Coders -/

namespace Coder

/-- The length of the fragments of a block. -/
def width :
    Coder → Nat → Nat
  | .erasure coder => coder.fragmentLength
  | _ => id

/-- The coder with nothing recorded. -/
def bare :
    Coder → Coder
  | .erasure coder => .erasure { code := coder.code }
  | other => other

/-- One fragment for each device, all as long as those of the block, which
give the block back; the erasure coder has to know the length of the block. -/
structure Decodes
    (coder : Coder)
    (devices : Nat)
    (fragments : List Bytes)
    (block : Bytes) :
    Prop where
  count : fragments.length = devices
  length : ∀ fragment ∈ fragments,
    fragment.length = coder.width block.length
  decode : ∀ placement : Placement,
    (coder.mode = .erasure → placement.block = some block.length) →
      coder.decode fragments placement = .ok block

@[simp]
theorem width_bare
    (coder : Coder) :
    coder.bare.width = coder.width := by
  cases coder <;> rfl

@[simp]
theorem mode_bare
    (coder : Coder) :
    coder.bare.mode = coder.mode := by
  cases coder <;> rfl

@[simp]
theorem devicePath_bare
    (coder : Coder) :
    coder.bare.devicePath = coder.devicePath := by
  cases coder <;> rfl

@[simp]
theorem decode_bare
    (coder : Coder) :
    coder.bare.decode = coder.decode := by
  cases coder <;> rfl

theorem decodes_bare_iff
    {coder : Coder}
    {devices : Nat}
    {fragments : List Bytes}
    {block : Bytes} :
    coder.bare.Decodes devices fragments block ↔
      coder.Decodes devices fragments block := by
  constructor
  · rintro ⟨count, length, decode⟩
    exact ⟨count, by simpa using length, by simpa using decode⟩
  · rintro ⟨count, length, decode⟩
    exact ⟨count, by simpa using length, by simpa using decode⟩

theorem decodes_replicate
    (block : Bytes)
    {devices : Nat}
    (some : 0 < devices) :
    Decodes .replicate devices (Replica.encode block devices) block where
  count := List.length_replicate
  length := by
    intro fragment member
    rw [List.eq_of_mem_replicate member]
    rfl
  decode := by
    intro placement _
    cases devices with
    | zero => cases some
    | succ rest => rfl

theorem decodes_xor
    {block : Bytes}
    {pads : List Bytes}
    {devices : Nat}
    (several : 1 < devices)
    (count : pads.length = devices - 1)
    (same : ∀ pad ∈ pads, pad.length = block.length) :
    Decodes .xor devices (Xor.split block pads) block where
  count := by
    rw [Xor.split, List.length_append, List.length_singleton]
    omega
  length := by
    intro fragment member
    cases List.mem_append.mp member with
    | inl pad => exact same fragment pad
    | inr last =>
        rw [List.mem_singleton.mp last]
        exact Xor.length_foldl_xor same
  decode := by
    intro placement _
    refine Xor.decode_split ?_ same
    intro empty
    rw [empty, List.length_nil] at count
    omega

theorem decodes_erasure
    {coder : ErasureCoder}
    {block : Bytes}
    (shaped : 0 < coder.code.data)
    (parity : coder.code.parityWeights.length = coder.code.parity)
    (nonempty : block ≠ []) :
    ∃ fragments,
      coder.fragments block = .ok fragments ∧
        Decodes (.erasure coder) coder.total fragments block := by
  rcases coder.decode_fragments shaped parity nonempty with
    ⟨fragments, split, count, length, decoded⟩
  refine ⟨fragments, split, count, length, ?_⟩
  intro placement known
  rw [Coder.decode, known rfl]
  exact decoded

end Coder

end Strata
