import Strata.Proofs.Books

/-!
# Where coders place blocks

Seen from the device stage the coders differ in little: how long the fragments
of a block are, and whether what was recorded decides where they lie.  For a
coder without books the fragments of a block lie where the block lies, which
is behind the fragments of all blocks before it; the books of the erasure
coder come to the same.
-/

namespace Strata.Coder

open FileExtents (reach Lays Continues)

variable
  {coder : Coder}
  {devices : Nat}
  {path : Path}
  {lengths front behind : List Nat}
  {old : Nat}

/-- Whether a coder can work over a number of devices: with one device at
least for copies, with two for pads and a share, and with as many as there are
shards. -/
def Fits
    (devices : Nat) :
    Coder → Prop
  | .replicate => 0 < devices
  | .xor => 1 < devices
  | .erasure coder => coder.Reached ∧ coder.total = devices

/-- A law for what is recorded for a path, if anything ever is. -/
def Records
    (path : Path)
    (law : FileExtents → Prop) :
    Coder → Prop
  | .erasure coder => law (coder.recorded path)
  | _ => True

theorem Records.imp
    {law weaker : FileExtents → Prop}
    (records : coder.Records path law)
    (implied : ∀ extents, law extents → weaker extents) :
    coder.Records path weaker := by
  cases coder with
  | erasure coder => exact implied _ records
  | replicate => trivial
  | xor => trivial

/-- One coder is another one with other books: it splits blocks in the same
way, and can be reached as well. -/
structure Follows
    (devices : Nat)
    (earlier : Coder)
    (later : Coder) :
    Prop where
  fits : later.Fits devices
  bare : later.bare = earlier.bare

theorem Follows.width
    {earlier : Coder}
    (follows : Follows devices earlier coder) :
    coder.width = earlier.width := by
  rw [← width_bare, follows.bare, width_bare]

theorem Follows.mode
    {earlier : Coder}
    (follows : Follows devices earlier coder) :
    coder.mode = earlier.mode := by
  rw [← mode_bare, follows.bare, mode_bare]

theorem Follows.devicePath
    {earlier : Coder}
    (follows : Follows devices earlier coder) :
    coder.devicePath = earlier.devicePath := by
  rw [← devicePath_bare, follows.bare, devicePath_bare]

theorem Follows.decodes
    {earlier : Coder}
    {fragments : List Bytes}
    {block : Bytes}
    (follows : Follows devices earlier coder) :
    coder.Decodes devices fragments block ↔
      earlier.Decodes devices fragments block := by
  rw [← decodes_bare_iff, follows.bare, decodes_bare_iff]

theorem Follows.trans
    {first second third : Coder}
    (earlier : Follows devices first second)
    (later : Follows devices second third) :
    Follows devices first third where
  fits := later.fits
  bare := later.bare.trans earlier.bare

theorem Fits.devices_pos
    (fits : coder.Fits devices) :
    0 < devices := by
  cases coder with
  | replicate => exact fits
  | xor => exact Nat.lt_of_succ_lt fits
  | erasure coder =>
      have shaped := fits.1.shaped.data
      rw [← fits.2, ErasureCoder.total, ReedSolomon.total]
      omega

theorem Fits.width_pos
    (fits : coder.Fits devices)
    {block : Bytes}
    (nonempty : block ≠ []) :
    0 < coder.width block.length := by
  have long := List.length_pos_iff.mpr nonempty
  cases coder with
  | replicate => exact long
  | xor => exact long
  | erasure coder => exact coder.fragmentLength_pos fits.1.shaped.data long

theorem follows_after
    {coder : ErasureCoder}
    (fits : Fits devices (.erasure coder))
    (call : BookCall) :
    Follows devices (.erasure coder) (.erasure (coder.after call)) where
  fits := by
    refine ⟨fits.1.called call, ?_⟩
    rw [ErasureCoder.total, coder.code_after]
    exact fits.2
  bare := by
    rw [bare, coder.code_after, bare]

/-- Without books fragments are as long as the block. -/
theorem width_of_plain
    (plain : coder.mode ≠ .erasure) :
    coder.width = id := by
  cases coder with
  | erasure coder => exact absurd rfl plain
  | replicate => rfl
  | xor => rfl

theorem reach_id
    (lengths : List Nat) :
    reach id lengths = lengths.sum := by
  simp [reach]

/-! ## Encoding -/

/-- A block behind others is split, and its fragments are placed behind
theirs. -/
theorem encode_answers
    (fits : coder.Fits devices)
    {block : Bytes}
    {pads : List Bytes}
    (nonempty : block ≠ [])
    (count : pads.length = coder.padCount devices)
    (same : ∀ pad ∈ pads, pad.length = block.length)
    (starts : coder.Records path fun extents =>
      extents.startFor? front.sum = some (reach coder.width front)) :
    ∃ fragments placement,
      coder.Decodes devices fragments block ∧
        placement = ⟨reach coder.width front, coder.width block.length,
          some block.length⟩ ∧
        (encode path block front.sum devices pads).Answers coder
          ⟨fragments, placement⟩
          (fun reached => Follows devices coder reached ∧
            ∀ law,
              coder.Records path (fun extents =>
                law (extents.record front.sum
                  ⟨reach coder.width front, coder.width block.length,
                    block.length⟩)) →
                reached.Records path law) := by
  cases coder with
  | replicate =>
      refine ⟨_, _, decodes_replicate block fits, rfl,
        .replicate, ?_, ⟨fits, rfl⟩, fun _ _ => trivial⟩
      simp [encode, width, reach_id]
  | xor =>
      refine ⟨_, _, decodes_xor fits count same, rfl,
        .xor, ?_, ⟨fits, rfl⟩, fun _ _ => trivial⟩
      simp [encode, Xor.encode, Nat.not_lt.mpr (Nat.succ_le_of_lt fits),
        width, reach_id, Except.map]
  | erasure coder =>
      rcases
          decodes_erasure fits.1.shaped.data fits.1.shaped.weights nonempty with
        ⟨fragments, split, decodes⟩
      rw [fits.2] at decodes
      rcases fits.1.sound.encode_recorded split starts with
        ⟨extent, known, answered, recorded⟩
      refine ⟨fragments, placementOf extent, decodes, by rw [known]; rfl,
        .erasure (coder.after (.encode path block front.sum)), ?_,
        follows_after fits _, ?_⟩
      · simp only [encode, Action.execute_ofRun, ErasureCoder.after]
        cases ran :
          (ErasureCoder.encode path block front.sum).execute coder with
        | mk answer reached =>
            rw [ran] at answered
            cases answered
            rfl
      · intro law holds
        change law ((coder.after _).recorded path)
        rw [recorded, known]
        exact holds

/-! ## Locating -/

/-- The block behind others is found behind their fragments. -/
theorem locate_block
    (records : coder.Records path
      (Lays coder.width (front ++ old :: behind)))
    (length : Nat) :
    ∃ placement,
      coder.locate path front.sum length = .ok (some placement) ∧
        placement.offset = reach coder.width front ∧
        (placement.length = coder.width old ∨
          coder.mode ≠ .erasure ∧ placement.length = length) ∧
        (coder.mode = .erasure → placement.block = some old) := by
  cases coder with
  | replicate =>
      refine ⟨_, rfl, (reach_id front).symm, .inr ⟨by decide, rfl⟩, ?_⟩
      exact fun wrong => absurd wrong (by decide)
  | xor =>
      refine ⟨_, rfl, (reach_id front).symm, .inr ⟨by decide, rfl⟩, ?_⟩
      exact fun wrong => absurd wrong (by decide)
  | erasure coder =>
      have found := Lays.find?_block records
      refine ⟨placementOf ⟨_, _, old⟩, ?_, rfl, .inl rfl, fun _ => rfl⟩
      rw [locate, coder.locate_eq, found]
      rfl

/-- At the end of a file nothing is found, or a place at the end. -/
theorem locate_end
    (records : coder.Records path (Lays coder.width lengths))
    (length : Nat) :
    coder.locate path lengths.sum length = .ok none ∨
      coder.mode ≠ .erasure ∧
        coder.locate path lengths.sum length =
          .ok (some ⟨lengths.sum, length, none⟩) := by
  cases coder with
  | replicate => exact .inr ⟨by decide, rfl⟩
  | xor => exact .inr ⟨by decide, rfl⟩
  | erasure coder =>
      have absent := Lays.find?_end records
      have total : (coder.recorded path).size = lengths.sum := records.size
      refine .inl ?_
      rw [locate, coder.locate_eq, absent]
      simp [total, Except.map]

/-- The size of a file is that of its blocks, whether the coder keeps it or
the device files are as long. -/
theorem trackedSize_getD
    (records : coder.Records path (Lays coder.width lengths))
    {found : Nat}
    (plain : coder.mode ≠ .erasure → found = lengths.sum) :
    (coder.trackedSize? path).getD found = lengths.sum := by
  cases coder with
  | replicate => exact plain (by decide)
  | xor => exact plain (by decide)
  | erasure coder =>
      change coder.trackedSize path = lengths.sum
      rw [coder.trackedSize_eq]
      exact records.size

/-! ## Cutting and emptying -/

theorem truncate_follows
    (fits : coder.Fits devices)
    (path : Path)
    (size : Nat) :
    Follows devices coder (coder.truncate path size).2 ∧
      ∀ law,
        coder.Records path (fun extents => law (extents.cut size)) →
          (coder.truncate path size).2.Records path law := by
  cases coder with
  | replicate => exact ⟨⟨fits, rfl⟩, fun _ _ => trivial⟩
  | xor => exact ⟨⟨fits, rfl⟩, fun _ _ => trivial⟩
  | erasure coder =>
      refine ⟨follows_after fits (.truncate path size), ?_⟩
      intro law holds
      have recorded := (fits.1.sound.truncate_recorded path size).2
      change law ((coder.after (.truncate path size)).recorded path)
      rw [recorded]
      exact holds

/-- The device files of a coder without books are cut to the new size, and
those of one with books behind the fragments of the blocks that stay, if they
are cut at all. -/
theorem truncate_cut
    (fits : coder.Fits devices)
    {size : Nat}
    (records : coder.Records path (Lays coder.width (front ++ behind)))
    (passed : front.sum ≤ size) :
    (coder.mode = .erasure ∧ (coder.truncate path size).1 = none) ∨
      ∃ length,
        (coder.truncate path size).1 = some length ∧
          reach coder.width front ≤ length ∧
          (coder.mode ≠ .erasure → length = size) := by
  cases coder with
  | replicate =>
      refine .inr ⟨size, rfl, ?_, fun _ => rfl⟩
      exact Nat.le_trans (Nat.le_of_eq (reach_id front)) passed
  | xor =>
      refine .inr ⟨size, rfl, ?_, fun _ => rfl⟩
      exact Nat.le_trans (Nat.le_of_eq (reach_id front)) passed
  | erasure coder =>
      have cut := (fits.1.sound.truncate_recorded path size).1
      cases decided : (coder.truncate path size).1 with
      | none => exact .inl ⟨rfl, decided⟩
      | some length =>
          rw [decided] at cut
          refine .inr ⟨length, decided, ?_, fun plain => absurd rfl plain⟩
          exact Lays.reach_le_cutLength records passed cut.symm

theorem onCreate_follows
    (fits : coder.Fits devices)
    (path : Path) :
    Follows devices coder (coder.onCreate path) ∧
      (coder.onCreate path).Records path (Lays coder.width []) := by
  cases coder with
  | replicate => exact ⟨⟨fits, rfl⟩, trivial⟩
  | xor => exact ⟨⟨fits, rfl⟩, trivial⟩
  | erasure coder =>
      exact ⟨follows_after fits (.reset path), coder.reset_lays path _⟩

end Strata.Coder
