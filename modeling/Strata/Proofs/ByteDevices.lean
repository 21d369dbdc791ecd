import Strata.Proofs.BlockRuns

/-!
# Devices without books as byte strings

Copies and shares can be read, written over and cut wherever the file can be:
what is done to the same range of every device file is done to that range of
the file.  So a file that was made on such devices is a byte string under all
requests, also without a stage above them, and a cipher that leaves blocks as
they are changes nothing of that.
-/

namespace Strata

variable {κ : Type}

/-! ## What is done to all fragments is done to the block -/

namespace Bytes

theorem getElem?_xor
    (left right : Bytes)
    (position : Nat) :
    (xor left right)[position]? =
      left[position]?.bind fun one =>
        right[position]?.map fun other => one ^^^ other := by
  rw [xor, List.getElem?_zipWith]
  cases left[position]? <;> cases right[position]? <;> rfl

theorem slice_xor
    (left right : Bytes)
    (offset length : Nat) :
    slice (xor left right) offset length =
      xor (slice left offset length) (slice right offset length) := by
  simp only [slice, xor, List.drop_zipWith, List.take_zipWith]

theorem resize_xor
    {left right : Bytes}
    (same : left.length = right.length)
    (length : Nat) :
    resize (xor left right) length =
      xor (resize left length) (resize right length) := by
  apply List.ext_getElem?
  intro position
  rw [getElem?_xor, getElem?_resize, getElem?_resize, getElem?_resize,
    getElem?_xor]
  by_cases inside : position < left.length
  · have other : position < right.length := same ▸ inside
    simp only [List.getElem?_eq_getElem inside,
      List.getElem?_eq_getElem other]
    split <;> rfl
  · have other : ¬ position < right.length := same ▸ inside
    simp only [List.getElem?_eq_none (Nat.le_of_not_lt inside),
      List.getElem?_eq_none (Nat.le_of_not_lt other)]
    split <;> rfl

theorem splice_xor
    {left right one other : Bytes}
    (same : left.length = right.length)
    (equal : one.length = other.length)
    (offset : Nat) :
    splice (xor left right) offset (xor one other) =
      xor (splice left offset one) (splice right offset other) := by
  by_cases empty : one = []
  · have none : other = [] := by
      rw [← List.length_eq_zero_iff, ← equal, empty, List.length_nil]
    subst empty none
    rfl
  · have some : other ≠ [] := by
      rw [← List.length_pos_iff, ← equal]
      exact List.length_pos_iff.mpr empty
    have both : xor one other ≠ [] := by
      rw [← List.length_pos_iff, length_xor, ← equal, Nat.min_self]
      exact List.length_pos_iff.mpr empty
    have width : (xor one other).length = one.length := by
      rw [length_xor, ← equal, Nat.min_self]
    rw [splice_of_ne_nil _ _ both, splice_of_ne_nil _ _ empty,
      splice_of_ne_nil _ _ some, resize_xor same, width, ← equal]
    simp only [xor, List.drop_zipWith]
    rw [List.zipWith_append (by simpa using equal), List.zipWith_append]
    simp

end Bytes

/-! ## What is done to all fragments is done to the block -/

namespace Xor

variable
  {first : Bytes}
  {rest : List Bytes}

theorem foldl_xor_map
    (change : Bytes → Bytes)
    (meets : ∀ left right, left.length = right.length →
      change (Bytes.xor left right) = Bytes.xor (change left) (change right))
    (same : ∀ fragment ∈ rest, fragment.length = first.length) :
    (rest.map change).foldl Bytes.xor (change first) =
      change (rest.foldl Bytes.xor first) := by
  induction rest generalizing first with
  | nil => rfl
  | cons fragment rest ih =>
      have head := same fragment List.mem_cons_self
      rw [List.map_cons, List.foldl_cons, List.foldl_cons,
        ← meets first fragment head.symm, ih]
      intro other member
      rw [Bytes.length_xor, head, Nat.min_self]
      exact same other (List.mem_cons_of_mem _ member)

theorem foldl_xor_spliceAll
    {share : Bytes}
    {shares : List Bytes}
    (offset : Nat)
    (count : shares.length = rest.length)
    (same : ∀ fragment ∈ rest, fragment.length = first.length)
    (equal : ∀ fragment ∈ shares, fragment.length = share.length) :
    (spliceAll rest offset shares).foldl Bytes.xor
        (first.splice offset share) =
      (rest.foldl Bytes.xor first).splice offset
        (shares.foldl Bytes.xor share) := by
  induction rest generalizing first share shares with
  | nil =>
      obtain rfl := List.length_eq_zero_iff.mp count
      rfl
  | cons fragment rest ih =>
      rcases shares with _ | ⟨given, shares⟩
      · cases count
      · have head := same fragment List.mem_cons_self
        have front := equal given List.mem_cons_self
        rw [spliceAll, List.zipWith_cons_cons, List.foldl_cons,
          List.foldl_cons, List.foldl_cons,
          ← Bytes.splice_xor head.symm front.symm]
        refine ih (Nat.succ.inj count) ?_ ?_
        · intro other member
          rw [Bytes.length_xor, head, Nat.min_self]
          exact same other (List.mem_cons_of_mem _ member)
        · intro other member
          rw [Bytes.length_xor, front, Nat.min_self]
          exact equal other (List.mem_cons_of_mem _ member)

end Xor

namespace Coder

variable
  {coder : Coder}
  {devices : Nat}
  {contents fragments : List Bytes}
  {bytes block : Bytes}

/-- What fragments of equal length come to without books. -/
def merged
    (coder : Coder)
    (first : Bytes)
    (rest : List Bytes) :
    Bytes :=
  match coder with
  | .xor => rest.foldl Bytes.xor first
  | _ => first

variable (plain : coder.mode ≠ .erasure)

include plain

/-- Fragments of a coder without books are as long as their block. -/
theorem Decodes.length_eq
    (decodes : coder.Decodes devices contents bytes) :
    ∀ content ∈ contents, content.length = bytes.length := by
  intro content member
  rw [decodes.length content member, width_of_plain plain, id]

theorem decode_eq_merged
    {first : Bytes}
    {rest : List Bytes}
    (same : ∀ fragment ∈ rest, fragment.length = first.length)
    (placement : Placement) :
    coder.decode (first :: rest) placement = .ok (coder.merged first rest) ∧
      (coder.merged first rest).length = first.length := by
  cases coder with
  | erasure coder => exact absurd rfl plain
  | replicate => exact ⟨rfl, rfl⟩
  | xor => exact ⟨Xor.recombine_of_length same, Xor.length_foldl_xor same⟩

/-- Without books there is one fragment at least, and the block is what they
come to. -/
theorem decodes_iff_merged :
    coder.Decodes devices contents bytes ↔
      contents.length = devices ∧
        ∃ first rest, contents = first :: rest ∧
          (∀ fragment ∈ rest, fragment.length = first.length) ∧
          bytes = coder.merged first rest := by
  constructor
  · rintro ⟨count, length, decode⟩
    rw [width_of_plain plain] at length
    rcases contents with _ | ⟨first, rest⟩
    · have nothing := decode default fun books => absurd books plain
      cases coder with
      | erasure coder => exact absurd rfl plain
      | replicate => cases nothing
      | xor => cases nothing
    · have head := length first List.mem_cons_self
      have same : ∀ fragment ∈ rest, fragment.length = first.length :=
        fun fragment member =>
          (length fragment (List.mem_cons_of_mem _ member)).trans head.symm
      have decoded := decode default fun books => absurd books plain
      rw [(decode_eq_merged plain same _).1] at decoded
      exact ⟨count, first, rest, rfl, same, (Except.ok.inj decoded).symm⟩
  · rintro ⟨count, first, rest, rfl, same, rfl⟩
    have long := (decode_eq_merged plain same default).2
    refine ⟨count, ?_, fun placement _ =>
      (decode_eq_merged plain same placement).1⟩
    rw [width_of_plain plain, long]
    intro fragment member
    rcases List.mem_cons.mp member with rfl | later
    · rfl
    · exact same fragment later

/-- A change of every fragment that goes through putting one on another is a
change of the block. -/
theorem Decodes.map
    (decodes : coder.Decodes devices contents bytes)
    (change : Bytes → Bytes)
    (alike : ∀ left right, left.length = right.length →
      (change left).length = (change right).length)
    (meets : ∀ left right, left.length = right.length →
      change (Bytes.xor left right) =
        Bytes.xor (change left) (change right)) :
    coder.Decodes devices (contents.map change) (change bytes) := by
  rcases (decodes_iff_merged plain).mp decodes with
    ⟨count, first, rest, rfl, same, rfl⟩
  refine (decodes_iff_merged plain).mpr ⟨by rw [List.length_map, count],
    change first, rest.map change, rfl, ?_, ?_⟩
  · intro fragment member
    rcases List.mem_map.mp member with ⟨content, among, rfl⟩
    exact alike _ _ (same content among)
  · cases coder with
    | erasure coder => exact absurd rfl plain
    | replicate => rfl
    | xor => exact (Xor.foldl_xor_map change meets same).symm

theorem Decodes.slice
    (decodes : coder.Decodes devices contents bytes)
    (offset length : Nat) :
    coder.Decodes devices (contents.map (·.slice offset length))
      (bytes.slice offset length) := by
  refine decodes.map plain (·.slice offset length) ?_ ?_
  · intro left right same
    rw [Bytes.length_slice, Bytes.length_slice, same]
  · exact fun left right _ => Bytes.slice_xor left right offset length

theorem Decodes.resize
    (decodes : coder.Decodes devices contents bytes)
    (length : Nat) :
    coder.Decodes devices (contents.map (·.resize length))
      (bytes.resize length) := by
  refine decodes.map plain (·.resize length) ?_ ?_
  · intro left right _
    rw [Bytes.length_resize, Bytes.length_resize]
  · exact fun left right same => Bytes.resize_xor same length

/-- Fragments of a block are written over those of a file. -/
theorem Decodes.splice
    (decodes : coder.Decodes devices contents bytes)
    (written : coder.Decodes devices fragments block)
    (offset : Nat) :
    coder.Decodes devices (spliceAll contents offset fragments)
      (bytes.splice offset block) := by
  have each := written.count.trans decodes.count.symm
  rcases (decodes_iff_merged plain).mp decodes with
    ⟨count, first, rest, rfl, same, rfl⟩
  rcases (decodes_iff_merged plain).mp written with
    ⟨-, share, shares, rfl, equal, rfl⟩
  refine (decodes_iff_merged plain).mpr
    ⟨by rw [length_spliceAll each, count], first.splice offset share,
      spliceAll rest offset shares, rfl, ?_, ?_⟩
  · intro fragment member
    rcases List.mem_iff_getElem?.mp member with ⟨device, found⟩
    rw [spliceAll, List.getElem?_zipWith_eq_some] at found
    rcases found with ⟨old, new, before, given, rfl⟩
    have long := same old (List.mem_of_getElem? before)
    have width := equal new (List.mem_of_getElem? given)
    simp only [Bytes.length_splice, ← List.length_eq_zero_iff, long, width]
  · cases coder with
    | erasure coder => exact absurd rfl plain
    | replicate => rfl
    | xor =>
        exact (Xor.foldl_xor_spliceAll offset (Nat.succ.inj each) same
          equal).symm

/-- A block is split into fragments of its own length, which go where the
block goes. -/
theorem encode_answers_of_plain
    (fits : coder.Fits devices)
    {block : Bytes}
    {pads : List Bytes}
    (count : pads.length = coder.padCount devices)
    (same : ∀ pad ∈ pads, pad.length = block.length)
    (path : Path)
    (offset : Nat) :
    ∃ fragments,
      coder.Decodes devices fragments block ∧
        (encode path block offset devices pads).Answers coder
          ⟨fragments, offset, block.length, some block.length⟩
          (· = coder) := by
  cases coder with
  | erasure coder => exact absurd rfl plain
  | replicate => exact ⟨_, decodes_replicate block fits, _, rfl, rfl⟩
  | xor =>
      have several : 1 < devices := fits
      refine ⟨_, decodes_xor several count same, .xor, ?_, rfl⟩
      simp only [encode, Action.execute_ofRun, Xor.encode,
        if_neg (Nat.not_lt.mpr several), Except.map]

/-- Without books there is nothing in which another coder could differ. -/
theorem Follows.eq
    {other : Coder}
    (follows : Follows devices coder other) :
    other = coder := by
  have bare := follows.bare
  cases coder with
  | erasure coder => exact absurd rfl plain
  | replicate => cases other <;> first | rfl | cases bare
  | xor => cases other <;> first | rfl | cases bare

end Coder

/-! ## Device files that contain a byte string -/

/-- The device files of a fleet without books come to a byte string. -/
structure Fleet.Contains
    (base : Coder)
    (devices : Nat)
    (files : List Bytes → κ → Prop)
    (bytes : Bytes)
    (fleet : Fleet κ) :
    Prop where
  coder : fleet.coder = base
  rows : ∃ contents,
    base.Decodes devices contents bytes ∧ files contents fleet.host

/-- Empty device files come to an empty file. -/
theorem Coder.decodes_nil
    {base : Coder}
    {devices : Nat}
    (plain : base.mode ≠ .erasure)
    (some : 0 < devices) :
    base.Decodes devices (List.replicate devices []) [] := by
  have same : ∀ fragment ∈ List.replicate (devices - 1) ([] : Bytes),
      fragment.length = ([] : Bytes).length := by
    intro fragment member
    rw [List.eq_of_mem_replicate member]
  refine (decodes_iff_merged plain).mpr ⟨List.length_replicate, [],
    List.replicate (devices - 1) [], ?_, same, ?_⟩
  · rw [← List.replicate_succ, Nat.sub_add_cancel some]
  · exact (List.length_eq_zero_iff.mp
      (decode_eq_merged plain same default).2).symm

namespace Devices

variable
  {devices : Devices κ}
  {base : Coder}
  {path : Path}
  {Holds : List Descriptor → List Bytes → κ → Prop}
  {opened : List Descriptor}
  {bytes : Bytes}
  {fleet : Fleet κ}
  (plain : base.mode ≠ .erasure)
  (fits : base.Fits devices.count)
  (serves : devices.backend.Serves (devices.filePlaces base path) Holds)

include plain fits serves in
/-- A read delivers the bytes in its range. -/
theorem read_contained_answers
    (offset length : Nat)
    (contains : fleet.Contains base devices.count (Holds opened) bytes) :
    (devices.read path ⟨opened⟩ offset length).Answers fleet
      (bytes.slice offset length)
      (Fleet.Contains base devices.count (Holds opened) bytes) := by
  rcases contains with ⟨coder, contents, decodes, holds⟩
  have located : (Fleet.askCoder (·.locate path offset length)).Answers fleet
      (some ⟨offset, length, none⟩) (· = fleet) := by
    refine Fleet.askCoder_answers ?_
    rw [coder]
    cases base with
    | erasure coder => exact absurd rfl plain
    | _ => rfl
  rw [read]
  refine located.bind fun reached kept => ?_
  subst kept
  dsimp only
  by_cases none : length = 0
  · rw [if_pos none, none, Bytes.slice, List.take_zero]
    exact .pure ⟨coder, contents, decodes, holds⟩
  have pieces := decodes.slice plain offset length
  have long := pieces.length_eq plain
  have width : ∀ content ∈ contents, (content.slice offset length).length =
      (bytes.slice offset length).length :=
    fun content member =>
      long _ (List.mem_map.mpr ⟨content, member, rfl⟩)
  have fragments : (contents.map fun content =>
      Outcome.data (content.slice offset length)).map (·.bytes) =
        contents.map (·.slice offset length) := by
    simp [Outcome.bytes]
  rw [if_neg none]
  refine (fanOut_read_answers serves width holds).bind fun last kept => ?_
  have contains : last.Contains base devices.count (Holds opened) bytes :=
    ⟨kept.1.trans coder, contents, decodes, kept.2⟩
  rw [fragments]
  generalize contents.map (·.slice offset length) = fragments at pieces long
  obtain ⟨first, rest, rfl⟩ : ∃ first rest, fragments = first :: rest :=
    List.exists_cons_of_length_pos (pieces.count ▸ fits.devices_pos)
  have head := long first List.mem_cons_self
  by_cases past : first = []
  · -- All devices are at the end of their files together.
    have nothing : bytes.slice offset length = [] := by
      rw [← List.length_eq_zero_iff, ← head, past, List.length_nil]
    rw [if_pos (by rw [past]; rfl), nothing]
    exact .pure contains
  · have decoded : (Fleet.askCoder (·.decode (first :: rest)
        ⟨offset, length, .none⟩)).Answers last (bytes.slice offset length)
          (· = last) := by
      refine Fleet.askCoder_answers ?_
      rw [contains.coder]
      exact pieces.decode _ fun books => absurd books plain
    rw [if_neg (by simpa using past)]
    refine decoded.bind fun final same => ?_
    subst same
    have whole : (bytes.slice offset length).take length =
        bytes.slice offset length := by
      refine List.take_of_length_le ?_
      rw [Bytes.length_slice]
      exact Nat.min_le_left _ _
    rw [whole]
    exact .pure contains

/-- Without books a cut reaches every device file, by path or handle. -/
theorem truncate_files_answers
    (plain : fleet.coder.mode ≠ .erasure)
    (serves :
      devices.backend.Serves (devices.filePlaces fleet.coder path) Holds)
    {on : Option FileHandle}
    (own : on = none ∨ on = some ⟨opened⟩)
    (target : Nat)
    {contents : List Bytes}
    (count : contents.length = devices.count)
    (held : Holds opened contents fleet.host) :
    (devices.truncate path on target).Answers fleet ()
      (fun reached => reached.coder = fleet.coder ∧
        Holds opened (contents.map (·.resize target)) reached.host) := by
  have cut : (Fleet.onCoder (Action.ofRun fun coder =>
      (.ok (coder.truncate path target).1,
        (coder.truncate path target).2))).Answers fleet (some target)
          (· = fleet) := by
    have kept : fleet.coder.truncate path target =
        (some target, fleet.coder) := by
      cases coder : fleet.coder with
      | erasure books => exact absurd (by rw [coder]; rfl) plain
      | _ => rfl
    refine ⟨fleet, ?_, rfl⟩
    simp only [Fleet.onCoder, Action.execute_ofRun, kept]
  refine cut.bind fun reached kept => ?_
  subst kept
  rcases own with rfl | rfl
  · have files : (devices.files path).Answers reached
        (devices.filePlaces reached.coder path) (· = reached) :=
      Fleet.askCoder_answers rfl
    refine files.bind fun middle kept => ?_
    subst kept
    have paired :
        (devices.filePlaces middle.coder path).length = contents.length := by
      rw [length_filePlaces, count]
    exact fanOutDone_truncate_answers serves target paired held
  · exact onHandle_truncate_answers serves target held

include plain fits serves in
/-- A write takes all of its bytes, whatever the pads are. -/
theorem write_contained_answers
    {offset : Nat}
    {block : Bytes}
    {pads : List Bytes}
    (count : pads.length = base.padCount devices.count)
    (sized : ∀ pad ∈ pads, pad.length = block.length)
    (contains : fleet.Contains base devices.count (Holds opened) bytes) :
    (devices.write path ⟨opened⟩ offset block pads).Answers fleet block.length
      (Fleet.Contains base devices.count (Holds opened)
        (bytes.splice offset block)) := by
  rcases contains with ⟨coder, contents, decodes, holds⟩
  rcases Coder.encode_answers_of_plain plain fits count sized path offset with
    ⟨fragments, splits, encoded⟩
  rw [← coder] at encoded
  have some : fragments ≠ [] := by
    rw [← List.length_pos_iff, splits.count]
    exact fits.devices_pos
  refine (write_fragments_answers serves encoded some
    (splits.length_eq plain) (splits.count.trans decodes.count.symm)
    holds).weaken fun reached kept => ?_
  exact ⟨kept.1.trans coder, _, decodes.splice plain splits offset, kept.2⟩

include plain serves in
theorem truncate_contained_answers
    {on : Option FileHandle}
    (own : on = none ∨ on = some ⟨opened⟩)
    (target : Nat)
    (contains : fleet.Contains base devices.count (Holds opened) bytes) :
    (devices.truncate path on target).Answers fleet ()
      (Fleet.Contains base devices.count (Holds opened)
        (bytes.resize target)) := by
  rcases contains with ⟨coder, contents, decodes, holds⟩
  rw [← coder] at serves
  refine (truncate_files_answers (by rwa [coder]) serves own target
    decodes.count holds).weaken fun reached kept => ?_
  exact ⟨kept.1.trans coder, _, decodes.resize plain target, kept.2⟩

include plain fits serves in
/-- The size of the file is known, asked by path or handle. -/
theorem attributes_contained_answers
    {on : Option FileHandle}
    (own : on = none ∨ on = some ⟨opened⟩)
    (contains : fleet.Contains base devices.count (Holds opened) bytes) :
    ∃ found, found.size = bytes.length ∧
      (devices.attributes path on).Answers fleet found (· = fleet) := by
  rcases contains with ⟨coder, contents, decodes, holds⟩
  rw [← coder] at serves
  rcases attributes_held_answers serves own decodes.count fits.devices_pos
      holds with
    ⟨found, content, member, size, answers⟩
  refine ⟨found, ?_, answers⟩
  -- The coder does not know the size, so that the device has the last word.
  have untracked : fleet.coder.trackedSize? path = none := by
    rw [coder]
    cases base with
    | erasure coder => exact absurd rfl plain
    | _ => rfl
  rw [size, untracked]
  exact decodes.length_eq plain content member

end Devices

end Strata
