import Strata.Proofs.Isolation

/-!
# Recorded blocks

What a coder says of a path is the size of its file and the extents of its
blocks.  In every state that calls can lead to, the fragments of a block have
the length that its own length asks for, those of a first block are at the
start, and no block starts past the end of its file.  So it can be told which
calls on a path leave everything that the coder says as it is.
-/

namespace Strata

namespace FileExtents

variable
  {extents : FileExtents}
  {width : Nat → Nat}
  {offset size : Nat}
  {extent : Extent}

/-- Whether the same size and the same blocks are recorded. -/
structure Alike
    (first second : FileExtents) :
    Prop where
  size : first.size = second.size
  blocks : ∀ offset, first.blocks.find? offset = second.blocks.find? offset

theorem Alike.refl
    (extents : FileExtents) :
    Alike extents extents :=
  ⟨rfl, fun _ => rfl⟩

/-- What calls keep of the blocks of a file. -/
structure Measured
    (width : Nat → Nat)
    (extents : FileExtents) :
    Prop where
  fragment : ∀ offset extent, extents.blocks.find? offset = some extent →
    extent.fragment = width extent.block
  first : ∀ extent, extents.blocks.find? 0 = some extent → extent.start = 0
  inside : ∀ offset extent, extents.blocks.find? offset = some extent →
    offset < extents.size

theorem measured_empty
    (width : Nat → Nat) :
    Measured width {} :=
  ⟨nofun, nofun, nofun⟩

theorem Measured.record
    (measured : extents.Measured width)
    {start block : Nat}
    (nonempty : 0 < block)
    (starts : extents.startFor? offset = some start) :
    (extents.record offset ⟨start, width block, block⟩).Measured width where
  fragment other extent found := by
    rw [FileExtents.record, Table.find?_set] at found
    split at found
    · cases found
      rfl
    · exact measured.fragment other extent found
  first extent found := by
    rw [FileExtents.record, Table.find?_set] at found
    split at found
    · rename_i atStart
      rw [startFor?, if_pos atStart] at starts
      cases found
      exact (Option.some.inj starts).symm
    · exact measured.first extent found
  inside other extent found := by
    rw [FileExtents.record, Table.find?_set] at found
    change other < max extents.size (offset + block)
    split at found
    · omega
    · have := measured.inside other extent found
      omega

theorem Measured.cut
    (measured : extents.Measured width)
    (size : Nat) :
    (extents.cut size).Measured width := by
  have kept : ∀ offset extent,
      (extents.cut size).blocks.find? offset = some extent →
        offset < size ∧ extents.blocks.find? offset = some extent := by
    intro offset extent found
    rw [FileExtents.cut, Table.find?_keep] at found
    split at found
    · rename_i before
      exact ⟨by simpa using before, found⟩
    · cases found
  exact ⟨fun offset extent found =>
      measured.fragment offset extent (kept offset extent found).2,
    fun extent found => measured.first extent (kept 0 extent found).2,
    fun offset extent found => (kept offset extent found).1⟩

/-- A block that is recorded changes nothing if it was recorded already and
does not end past the end of the file. -/
theorem alike_record_iff :
    Alike extents (extents.record offset extent) ↔
      extents.blocks.find? offset = some extent ∧
        offset + extent.block ≤ extents.size := by
  constructor
  · rintro ⟨size, blocks⟩
    have found := blocks offset
    rw [record, Table.find?_set, if_pos rfl] at found
    change extents.size = max extents.size (offset + extent.block) at size
    exact ⟨found, by omega⟩
  · rintro ⟨found, inside⟩
    refine ⟨(max_eq_left inside).symm, fun other => ?_⟩
    rw [record, Table.find?_set]
    split
    · rename_i same
      rw [← same, found]
    · rfl

/-- Where a recorded block goes, its recorded extent is the one it is given
again if it has the same length. -/
theorem Measured.find?_startFor?_iff
    (measured : extents.Measured width)
    {start block : Nat}
    (starts : extents.startFor? offset = some start) :
    extents.blocks.find? offset = some ⟨start, width block, block⟩ ↔
      ∃ extent, extents.blocks.find? offset = some extent ∧
        extent.block = block := by
  constructor
  · exact fun found => ⟨_, found, rfl⟩
  · rintro ⟨⟨oldStart, fragment, length⟩, found, rfl⟩
    have wide : fragment = width length := measured.fragment _ _ found
    have same : oldStart = start := by
      unfold startFor? at starts
      split at starts
      · rename_i atStart
        rw [atStart] at found
        exact (measured.first _ found).trans (Option.some.inj starts)
      · rw [found] at starts
        exact Option.some.inj starts
    rw [found, wide, same]

/-- When there is a length to cut the fragments to, a cut changes nothing
exactly for a file that is empty. -/
theorem Measured.alike_cut_iff
    (measured : extents.Measured width)
    {length : Nat}
    (cuts : extents.cutLength? size = some length) :
    Alike extents (extents.cut size) ↔ extents.size = 0 := by
  have dropped : size ≠ 0 → ∃ offset extent,
      size ≤ offset ∧ extents.blocks.find? offset = some extent := by
    intro notEmptied
    rw [cutLength?, if_neg notEmptied] at cuts
    have member := List.min?_mem cuts
    rcases List.mem_map.mp member with ⟨⟨offset, extent⟩, among, -⟩
    rcases List.mem_filter.mp among with ⟨there, past⟩
    cases found : extents.blocks.find? offset with
    | none =>
        exact absurd (List.mem_map_of_mem there)
          ((Table.find?_eq_none_iff _ _).mp found)
    | some other => exact ⟨offset, other, by simpa using past, found⟩
  constructor
  · rintro ⟨same, blocks⟩
    change extents.size = size at same
    by_contra nonempty
    rcases dropped (same ▸ nonempty) with ⟨offset, extent, past, found⟩
    have gone := blocks offset
    rw [found, FileExtents.cut, Table.find?_keep,
      if_neg (by simpa using past)] at gone
    cases gone
  · intro empty
    have absent : ∀ offset, extents.blocks.find? offset = none := by
      intro offset
      cases found : extents.blocks.find? offset with
      | none => rfl
      | some extent =>
          have := measured.inside offset extent found
          omega
    have emptied : size = 0 := by
      by_contra notEmptied
      rcases dropped notEmptied with ⟨offset, extent, -, found⟩
      rw [absent] at found
      cases found
    refine ⟨empty.trans emptied.symm, fun offset => ?_⟩
    rw [absent, FileExtents.cut, Table.find?_keep, absent, ite_self]

end FileExtents

namespace ErasureCoder

variable
  {coder other : ErasureCoder}
  {path : Path}

/-! ## Blocks in every state -/

/-- What calls keep of the blocks of all files. -/
def Measured
    (coder : ErasureCoder) :
    Prop :=
  ∀ id, (coder.extents.file id).Measured coder.fragmentLength

/-- A block that can be split is not empty. -/
theorem pos_of_fragments
    {block : Bytes}
    {fragments : List Bytes}
    (split : coder.fragments block = .ok fragments) :
    0 < block.length := by
  by_contra empty
  have nothing : block = [] := List.length_eq_zero_iff.mp (by omega)
  subst nothing
  have short : ((coder.dataShards []).headD []).length = 0 := by
    cases shards : coder.dataShards [] with
    | nil => rfl
    | cons shard rest =>
        have member : shard ∈ coder.dataShards [] := by
          rw [shards]
          exact List.mem_cons_self
        rw [List.headD_cons, length_of_mem_dataShards member]
        unfold fragmentLength
        cases coder.code.data with
        | zero => rfl
        | succ count => exact Nat.div_eq_of_lt (by simp)
  rw [ErasureCoder.fragments, ReedSolomon.encode] at split
  simp only [short, if_true] at split
  cases split

/-- The fragments that a block was split into: its data shards and others, as
many as there are devices and all of one length. -/
theorem Shaped.of_fragments
    (shaped : coder.Shaped)
    {block : Bytes}
    {fragments : List Bytes}
    (split : coder.fragments block = .ok fragments) :
    coder.dataShards block <+: fragments ∧
      fragments.length = coder.total ∧
      ∀ fragment ∈ fragments,
        fragment.length = coder.fragmentLength block.length := by
  have nonempty := List.length_pos_iff.mp (pos_of_fragments split)
  rcases exists_fragments shaped.data shaped.weights nonempty with
    ⟨rest, found, total, same⟩
  cases split.symm.trans found
  exact ⟨List.prefix_append _ _, total, same⟩

theorem Measured.set
    (measured : coder.Measured)
    {id : FileId}
    {file : FileExtents}
    (fits : file.Measured coder.fragmentLength) :
    ∀ other, (Extents.file (coder.extents.set id file) other).Measured
      coder.fragmentLength := by
  intro other
  rw [Extents.file, Table.find?_set]
  split
  · exact fits
  · exact measured other

theorem Measured.dropOrphan
    (measured : coder.Measured)
    (orphan : Option FileId) :
    (coder.dropOrphan orphan).Measured := by
  cases orphan with
  | none => exact measured
  | some id =>
      intro other
      change ((Table.find? other (coder.extents.erase id)).getD {}).Measured _
      rw [Table.find?_erase]
      split
      · exact FileExtents.measured_empty _
      · exact measured other

theorem Measured.after
    (measured : coder.Measured)
    (call : BookCall) :
    (coder.after call).Measured := by
  have kept : ∀ identities, Measured { coder with identities } :=
    fun _ => measured
  cases call with
  | encode path block offset =>
      rcases coder.encode_cases path block offset with
        ⟨error, -, ran⟩ | ⟨id, identities, fragments, -, split, placed⟩
      · rw [ErasureCoder.after, ran]
        exact measured
      · rcases placed with ⟨-, ran⟩ | ⟨start, extent, starts, rfl, ran⟩
        · rw [ErasureCoder.after, ran]
          exact measured
        · rw [ErasureCoder.after, ran]
          exact measured.set
            ((measured id).record (pos_of_fragments split) starts)
  | truncate path size => exact measured.set ((measured _).cut size)
  | reset path =>
      rw [ErasureCoder.after, reset]
      split
      · exact measured
      · exact measured.set ((measured _).cut 0)
  | forget path => exact (kept _).dropOrphan _
  | rename source target => exact (kept _).dropOrphan _
  | renameDirectory source target => exact measured
  | link existing added => exact measured

theorem Reached.measured
    (reached : coder.Reached) :
    coder.Measured := by
  induction reached with
  | made shape =>
      intro id
      rw [(eq_of_ofShape shape).2.2.2]
      exact FileExtents.measured_empty _
  | called _ call ih => exact ih.after call

theorem Reached.measured_recorded
    (reached : coder.Reached)
    (path : Path) :
    (coder.recorded path).Measured coder.fragmentLength :=
  reached.sound.file_identify path ▸ reached.measured _

/-! ## Coders that agree -/

/-- Whether two coders say the same of every path. -/
def Agree
    (first second : ErasureCoder) :
    Prop :=
  ∀ path, AgreeAt path first second

theorem locate_eq_some_iff
    {offset : Nat}
    {extent : Extent} :
    coder.locate path offset = .ok (some extent) ↔
      (coder.recorded path).blocks.find? offset = some extent := by
  rw [locate_eq]
  cases (coder.recorded path).blocks.find? offset with
  | some found => simp
  | none =>
      by_cases past : (coder.recorded path).size ≤ offset <;> simp [past]

/-- Coders say the same of a path if what they have recorded for it is
alike. -/
theorem agreeAt_iff :
    AgreeAt path coder other ↔
      (coder.recorded path).Alike (other.recorded path) := by
  constructor
  · rintro ⟨sizes, places⟩
    rw [trackedSize_eq, trackedSize_eq] at sizes
    refine ⟨sizes, fun offset => ?_⟩
    have place := places offset
    rw [locate_eq, locate_eq, sizes] at place
    cases one : (coder.recorded path).blocks.find? offset <;>
      cases two : (other.recorded path).blocks.find? offset <;>
        simp only [one, two] at place
    · rfl
    · split at place <;> cases place
    · split at place <;> cases place
    · cases place
      rfl
  · rintro ⟨sizes, blocks⟩
    constructor
    · rw [trackedSize_eq, trackedSize_eq, sizes]
    · intro offset
      rw [locate_eq, locate_eq, sizes, blocks]

theorem recorded_of_render
    (coder : ErasureCoder)
    {first second : Path}
    (same : first.render = second.render) :
    coder.recorded first = coder.recorded second := by
  rw [recorded, recorded, identity?, identity?, same]

/-- A call that changes the file of a path changes nothing for another path,
or the two have the same recorded before and after it. -/
theorem Sound.recorded_after_or
    (sound : coder.Sound)
    {call : BookCall}
    (identified : call.identified? = some path)
    (behind : Path) :
    (coder.after call).recorded behind = coder.recorded behind ∨
      (coder.after call).recorded behind = (coder.after call).recorded path ∧
        coder.recorded behind = coder.recorded path := by
  by_cases same : path.render = behind.render
  · exact .inr ⟨recorded_of_render _ same.symm, recorded_of_render _ same.symm⟩
  have named : (coder.after call).identity? behind =
      coder.identity? behind := by
    rcases identities_after_identified identified with known | asked
    · rw [identity?, known, identity?]
    · rw [identity?, asked, Identities.lookup_identify_of_ne same, identity?]
  by_cases shares : coder.Shares path behind
  · rcases shares with ⟨id, one, two⟩
    have kept : (coder.after call).identity? path = some id := by
      rcases identities_after_identified identified with known | asked
      · rw [identity?, known, ← identity?, one]
      · rw [identity?, asked, Identities.lookup_identify_of_some one]
    right
    rw [recorded, recorded, recorded, recorded, named, kept, one, two]
    exact ⟨rfl, rfl⟩
  · have apart : ¬ call.Touches coder behind := by
      cases call with
      | encode | truncate =>
          cases identified
          rintro (rfl | touched)
          · exact same rfl
          · exact shares touched
      | reset | forget | rename | renameDirectory | link => cases identified
    exact .inl (recorded_congr named fun id found =>
      sound.file_after apart found (named.trans found))

/-- After a call that changes the file of a path, coders agree if they agree
at the path. -/
theorem Sound.agree_after_iff
    (sound : coder.Sound)
    {call : BookCall}
    (identified : call.identified? = some path) :
    coder.Agree (coder.after call) ↔
      (coder.recorded path).Alike ((coder.after call).recorded path) := by
  constructor
  · exact fun agree => agreeAt_iff.mp (agree path)
  · intro alike behind
    rw [agreeAt_iff]
    rcases sound.recorded_after_or identified behind with
      same | ⟨after, before⟩
    · rw [same]
      exact .refl _
    · rw [after, before]
      exact alike

/-- An attempt to encode a block leaves all that the coder says as it is
exactly if it fails, or the block was recorded already with the same length and
ends inside of the file. -/
theorem Reached.agree_encode_iff
    (reached : coder.Reached)
    (path : Path)
    (block : Bytes)
    (offset : Nat) :
    coder.Agree (coder.after (.encode path block offset)) ↔
      (∃ refused,
        ((encode path block offset).execute coder).1 = .error refused) ∨
      ∃ extent, coder.locate path offset = .ok (some extent) ∧
        extent.block = block.length ∧
        offset + block.length ≤ coder.trackedSize path := by
  have measured := reached.measured_recorded path
  rw [reached.sound.agree_after_iff rfl]
  have ran := reached.sound.encode_eq path block offset
  cases split : coder.fragments block with
  | error error =>
      rw [split] at ran
      rcases Prod.mk.inj ran with ⟨answer, left⟩
      rw [left]
      exact ⟨fun _ => .inl ⟨_, answer⟩, fun _ => .refl _⟩
  | ok fragments =>
      cases starts : (coder.recorded path).startFor? offset with
      | none =>
          rw [split, starts] at ran
          rcases Prod.mk.inj ran with ⟨answer, left⟩
          rw [left]
          exact ⟨fun _ => .inl ⟨_, answer⟩, fun _ => .refl _⟩
      | some start =>
          rw [split, starts] at ran
          rcases Prod.mk.inj ran with ⟨answer, left⟩
          rw [left, FileExtents.alike_record_iff,
            measured.find?_startFor?_iff starts, answer, trackedSize_eq]
          constructor
          · rintro ⟨⟨extent, found, same⟩, inside⟩
            exact .inr ⟨extent, locate_eq_some_iff.mpr found, same, inside⟩
          · rintro (⟨refused, failed⟩ | ⟨extent, found, same, inside⟩)
            · cases failed
            · exact ⟨⟨extent, locate_eq_some_iff.mp found, same⟩, inside⟩

/-- A cut that there is something to do for on the devices leaves all that the
coder says as it is exactly if the file is empty. -/
theorem Reached.agree_truncate_iff
    (reached : coder.Reached)
    (path : Path)
    {size length : Nat}
    (cuts : (coder.truncate path size).1 = some length) :
    coder.Agree (coder.after (.truncate path size)) ↔
      coder.trackedSize path = 0 := by
  have measured := reached.measured_recorded path
  rcases reached.sound.truncate_recorded path size with ⟨answer, left⟩
  rw [reached.sound.agree_after_iff rfl, left, trackedSize_eq,
    measured.alike_cut_iff (answer.symm.trans cuts)]

end ErasureCoder

end Strata
