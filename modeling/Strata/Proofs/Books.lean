import Strata.Proofs.Fragments
import Strata.Proofs.Layouts

/-!
# The books of the erasure coder

What an erasure coder has recorded for a path is what it has recorded for the
identity of the path, and nothing if there is none.  In every state that calls
can lead to, the identity that is given out next is not in use and nothing is
recorded for it, so a path that gets a new identity starts empty.
-/

namespace Strata

/-! ## Identities that were given out -/

namespace Identities

variable {identities : Identities}

/-- Whether every identity that a path names was given out before. -/
def Issued
    (identities : Identities) :
    Prop :=
  ∀ entry ∈ identities.names, entry.2 < identities.next

theorem Issued.lt
    (issued : identities.Issued)
    {path : String}
    {id : FileId}
    (found : identities.lookup path = some id) :
    id < identities.next :=
  issued _ (Table.mem_of_find? found)

theorem next_le_identify
    (identities : Identities)
    (path : String) :
    identities.next ≤ (identities.identify path).2.next := by
  unfold identify
  split
  · exact Nat.le_refl _
  · exact Nat.le_succ _

theorem Issued.identify
    (issued : identities.Issued)
    (path : String) :
    (identities.identify path).2.Issued := by
  unfold Identities.identify
  split
  · exact issued
  · intro entry member
    cases Table.mem_of_mem_set member with
    | inl added => exact added ▸ Nat.lt_succ_self _
    | inr old => exact Nat.lt_succ_of_lt (issued entry old)

/-- A path has an identity after it was asked for, and it was given out. -/
theorem lookup_identify
    (identities : Identities)
    (path : String) :
    (identities.identify path).2.lookup path =
      some (identities.identify path).1 := by
  unfold identify
  split
  · assumption
  · simp [lookup]

theorem Issued.identify_lt
    (issued : identities.Issued)
    (path : String) :
    (identities.identify path).1 < (identities.identify path).2.next :=
  (issued.identify path).lt (identities.lookup_identify path)

/-- Whether no path has an identity afterwards that none had before. -/
def Inherits
    (before after : Identities) :
    Prop :=
  ∀ entry ∈ after.names, ∃ old ∈ before.names, old.2 = entry.2

theorem Issued.inherited
    {after : Identities}
    (issued : identities.Issued)
    (inherits : identities.Inherits after)
    (later : identities.next ≤ after.next) :
    after.Issued := by
  intro entry member
  rcases inherits entry member with ⟨old, among, same⟩
  exact same ▸ Nat.lt_of_lt_of_le (issued old among) later

theorem forget_next
    (identities : Identities)
    (path : String) :
    (identities.forget path).2.next = identities.next := by
  unfold forget
  split <;> rfl

theorem inherits_forget
    (identities : Identities)
    (path : String) :
    identities.Inherits (identities.forget path).2 := by
  unfold forget
  split
  · exact fun entry member => ⟨entry, member, rfl⟩
  · exact fun entry member => ⟨entry, Table.mem_of_mem_erase member, rfl⟩

theorem Issued.forget
    (issued : identities.Issued)
    (path : String) :
    (identities.forget path).2.Issued :=
  issued.inherited (inherits_forget _ _)
    (Nat.le_of_eq (forget_next _ _).symm)

theorem rename_next
    (identities : Identities)
    (source target : String) :
    (identities.rename source target).2.next = identities.next := by
  unfold rename
  dsimp only
  split <;> rfl

theorem inherits_rename
    (identities : Identities)
    (source target : String) :
    identities.Inherits (identities.rename source target).2 := by
  intro entry member
  unfold rename at member
  dsimp only at member
  split at member
  · exact ⟨entry, member, rfl⟩
  · have others (among : entry ∈
        (identities.names.erase target).erase source) :
        entry ∈ identities.names :=
      Table.mem_of_mem_erase (Table.mem_of_mem_erase among)
    dsimp only at member
    split at member
    · rename_i id moved
      rcases Table.mem_of_mem_set member with rfl | old
      · exact ⟨_, Table.mem_of_find? moved, rfl⟩
      · exact ⟨entry, others old, rfl⟩
    · exact ⟨entry, others member, rfl⟩

theorem Issued.rename
    (issued : identities.Issued)
    (source target : String) :
    (identities.rename source target).2.Issued :=
  issued.inherited (inherits_rename _ _ _)
    (Nat.le_of_eq (rename_next _ _ _).symm)

/-- Moving names gives no path an identity that none had. -/
theorem exists_of_mem_moveNames
    {below above : List Char}
    {order names : Table String FileId}
    {entry : String × FileId}
    (member : entry ∈ order.foldl (moveName below above) names) :
    ∃ old ∈ order ++ names, old.2 = entry.2 := by
  induction order generalizing names with
  | nil => exact ⟨entry, member, rfl⟩
  | cons first rest ih =>
      rcases ih member with ⟨old, among, same⟩
      rcases List.mem_append.mp among with later | kept
      · exact ⟨old, by simp [later], same⟩
      · unfold moveName at kept
        split at kept
        · exact ⟨old, by simp [kept], same⟩
        · rcases Table.mem_of_mem_set kept with rfl | before
          · exact ⟨first, List.mem_cons_self, same⟩
          · exact ⟨old, by simp [Table.mem_of_mem_erase before], same⟩

theorem Issued.renameTree
    (issued : identities.Issued)
    (source target : String) :
    (identities.renameTree source target).Issued := by
  refine issued.inherited (fun entry member => ?_) (Nat.le_refl _)
  rcases exists_of_mem_moveNames member with ⟨old, among, same⟩
  exact ⟨old, (List.mem_append.mp among).elim id id, same⟩

theorem addName_next
    (identities : Identities)
    (existing added : String) :
    (identities.addName existing added).2.next = identities.next := by
  unfold addName
  split <;> rfl

theorem inherits_addName
    (identities : Identities)
    (existing added : String) :
    identities.Inherits (identities.addName existing added).2 := by
  intro entry member
  unfold addName at member
  split at member
  · exact ⟨entry, member, rfl⟩
  · rename_i id found
    rcases Table.mem_of_mem_set member with rfl | old
    · exact ⟨_, Table.mem_of_find? found, rfl⟩
    · exact ⟨entry, old, rfl⟩

theorem Issued.addName
    (issued : identities.Issued)
    (existing added : String) :
    (identities.addName existing added).2.Issued :=
  issued.inherited (inherits_addName _ _ _)
    (Nat.le_of_eq (addName_next _ _ _).symm)

end Identities

/-! ## States that calls lead to -/

/-- A call that may change the books. -/
inductive BookCall where
  | encode (path : Path) (block : Bytes) (offset : Nat)
  | truncate (path : Path) (size : Nat)
  | reset (path : Path)
  | forget (path : Path)
  | rename (source target : Path)
  | renameDirectory (source target : Path)
  | link (existing added : Path)
  deriving DecidableEq, Repr

namespace ErasureCoder

variable {coder : ErasureCoder}

/-- The coder after a call, whether it succeeds or not. -/
def after
    (coder : ErasureCoder) :
    BookCall → ErasureCoder
  | .encode path block offset => ((encode path block offset).execute coder).2
  | .truncate path size => (coder.truncate path size).2
  | .reset path => coder.reset path
  | .forget path => coder.forget path
  | .rename source target => coder.rename source target
  | .renameDirectory source target => coder.renameDirectory source target
  | .link existing added => coder.link existing added

/-- A coder that was made for some numbers of shards and called any number of
times. -/
inductive Reached : ErasureCoder → Prop where
  | made
      {data parity : Nat}
      {coder : ErasureCoder}
      (shape : ofShape data parity = .ok coder) :
      Reached coder
  | called
      {coder : ErasureCoder}
      (reached : Reached coder)
      (call : BookCall) :
      Reached (coder.after call)

/-- What calls preserve: every identity in use was given out, and nothing is
recorded for one that was not. -/
structure Sound
    (coder : ErasureCoder) :
    Prop where
  issued : coder.identities.Issued
  fresh : ∀ id, coder.identities.next ≤ id → coder.extents.find? id = none

/-- What an attempt to encode a block comes to: the block cannot be split, or
there is no place for it, or it is recorded where its fragments go. -/
theorem encode_cases
    (coder : ErasureCoder)
    (path : Path)
    (block : Bytes)
    (offset : Nat) :
    (∃ error, coder.fragments block = .error error ∧
      (encode path block offset).execute coder = (.error error, coder)) ∨
    (∃ id identities fragments,
      coder.identities.identify path.render = (id, identities) ∧
      coder.fragments block = .ok fragments ∧
        ((coder.extents.file id).startFor? offset = none ∧
          (encode path block offset).execute coder =
            (.error (.missingOffset path.render offset),
              { coder with identities }) ∨
        ∃ start extent,
          (coder.extents.file id).startFor? offset = some start ∧
          extent = ⟨start, coder.fragmentLength block.length, block.length⟩ ∧
          (encode path block offset).execute coder =
            (.ok (fragments, extent),
              { coder with
                identities
                extents := coder.extents.set id
                  ((coder.extents.file id).record offset extent) }))) := by
  cases split : coder.fragments block with
  | error error =>
      refine .inl ⟨error, rfl, ?_⟩
      simp only [encode, Action.execute_ofRun, split]
  | ok fragments =>
      cases identified : coder.identities.identify path.render with
      | mk id identities =>
          refine .inr ⟨id, identities, fragments, rfl, rfl, ?_⟩
          simp only [encode, Action.execute_ofRun, split, identified,
            Extents.place]
          cases (coder.extents.file id).startFor? offset with
          | none => exact .inl ⟨rfl, rfl⟩
          | some start => exact .inr ⟨start, _, rfl, rfl, rfl⟩

theorem Sound.of_identities
    (sound : coder.Sound)
    {identities : Identities}
    (issued : identities.Issued)
    (later : coder.identities.next ≤ identities.next) :
    Sound { coder with identities } where
  issued := issued
  fresh id past := sound.fresh id (Nat.le_trans later past)

theorem Sound.set
    (sound : coder.Sound)
    {id : FileId}
    (given : id < coder.identities.next)
    (file : FileExtents) :
    Sound { coder with extents := coder.extents.set id file } where
  issued := sound.issued
  fresh other past := by
    have apart : id ≠ other := Nat.ne_of_lt (Nat.lt_of_lt_of_le given past)
    rw [Table.find?_set, if_neg apart]
    exact sound.fresh other past

theorem Sound.dropOrphan
    (sound : coder.Sound)
    (orphan : Option FileId) :
    (coder.dropOrphan orphan).Sound := by
  cases orphan with
  | none => exact sound
  | some id =>
      refine ⟨sound.issued, fun other past => ?_⟩
      rw [ErasureCoder.dropOrphan, Extents.remove, Table.find?_erase]
      split
      · rfl
      · exact sound.fresh other past

theorem Sound.after
    (sound : coder.Sound)
    (call : BookCall) :
    (coder.after call).Sound := by
  have named : ∀ path : Path,
      Sound { coder with
        identities := (coder.identities.identify path.render).2 } :=
    fun path => sound.of_identities (sound.issued.identify _)
      (coder.identities.next_le_identify _)
  cases call with
  | encode path block offset =>
      rcases coder.encode_cases path block offset with
        ⟨error, -, ran⟩ | ⟨id, identities, fragments, identified, -, placed⟩
      · rw [ErasureCoder.after, ran]
        exact sound
      · have known := named path
        have given := sound.issued.identify_lt path.render
        rw [identified] at known given
        rcases placed with ⟨-, ran⟩ | ⟨start, extent, -, -, ran⟩
        · rw [ErasureCoder.after, ran]
          exact known
        · rw [ErasureCoder.after, ran]
          exact known.set given _
  | truncate path size =>
      exact (named path).set (sound.issued.identify_lt _) _
  | reset path =>
      rw [ErasureCoder.after, reset]
      split
      · exact sound
      · rename_i id found
        exact sound.set (sound.issued.lt found) _
  | forget path =>
      exact (sound.of_identities (sound.issued.forget _)
        (Nat.le_of_eq (Identities.forget_next _ _).symm)).dropOrphan _
  | rename source target =>
      exact (sound.of_identities (sound.issued.rename _ _)
        (Nat.le_of_eq (Identities.rename_next _ _ _).symm)).dropOrphan _
  | renameDirectory source target =>
      exact sound.of_identities (sound.issued.renameTree _ _)
        (Nat.le_refl _)
  | link existing added =>
      exact sound.of_identities (sound.issued.addName _ _)
        (Nat.le_of_eq (Identities.addName_next _ _ _).symm)

theorem code_dropOrphan
    (coder : ErasureCoder)
    (orphan : Option FileId) :
    (coder.dropOrphan orphan).code = coder.code := by
  cases orphan <;> rfl

theorem code_after
    (coder : ErasureCoder)
    (call : BookCall) :
    (coder.after call).code = coder.code := by
  cases call with
  | encode path block offset =>
      rcases coder.encode_cases path block offset with
        ⟨error, -, ran⟩ | ⟨id, identities, fragments, -, -, placed⟩
      · rw [after, ran]
      · rcases placed with ⟨-, ran⟩ | ⟨start, extent, -, -, ran⟩ <;>
          rw [after, ran]
  | truncate path size => rfl
  | reset path =>
      rw [after, reset]
      split <;> rfl
  | forget path => exact code_dropOrphan _ _
  | rename source target => exact code_dropOrphan _ _
  | renameDirectory source target => rfl
  | link existing added => rfl

/-- A coder that was made for numbers of shards: there are both kinds of
shards, no more than the field has elements, and weights for each parity
shard. -/
structure Shaped
    (coder : ErasureCoder) :
    Prop where
  data : 0 < coder.code.data
  parity : 0 < coder.code.parity
  points : coder.code.data + coder.code.parity ≤ 256
  weights : coder.code.parityWeights.length = coder.code.parity

/-- What a coder that was made for numbers of shards is. -/
theorem eq_of_ofShape
    {data parity : Nat}
    (shape : ofShape data parity = .ok coder) :
    0 < data ∧ 0 < parity ∧
      ReedSolomon.ofShape data parity = .ok coder.code ∧
      coder = { code := coder.code } := by
  unfold ofShape reported at shape
  split at shape
  · cases shape
  · cases made : ReedSolomon.ofShape data parity with
    | error fault =>
        rw [made] at shape
        cases shape
    | ok code =>
        rw [made] at shape
        cases shape
        exact ⟨by omega, by omega, rfl, rfl⟩

theorem shaped_of_ofShape
    {data parity : Nat}
    (shape : ofShape data parity = .ok coder) :
    coder.Shaped ∧ coder.Sound := by
  rcases eq_of_ofShape shape with ⟨someData, someParity, made, empty⟩
  rcases ReedSolomon.eq_of_ofShape made with ⟨few, dataCount, parityCount, -⟩
  refine ⟨⟨by omega, by omega, by omega,
    ReedSolomon.length_parityWeights made⟩, ?_⟩
  rw [empty]
  exact ⟨fun entry member => absurd member List.not_mem_nil, fun _ _ => rfl⟩

/-- The smallest coder with more than one data shard. -/
theorem ofShape_two_one :
    ofShape 2 1 = .ok { code := ⟨2, 1, [[3, 2]]⟩ } := by
  have weights : ReedSolomon.weights [0, 1] 2 = [3, 2] := by
    decide +kernel
  rw [← weights]
  rfl

theorem Reached.shaped
    (reached : coder.Reached) :
    coder.Shaped := by
  induction reached with
  | made shape => exact (shaped_of_ofShape shape).1
  | called _ call ih =>
      rcases ih with ⟨data, parity, points, weights⟩
      rw [← code_after _ call] at data parity points weights
      exact ⟨data, parity, points, weights⟩

theorem Reached.sound
    (reached : coder.Reached) :
    coder.Sound := by
  induction reached with
  | made shape => exact (shaped_of_ofShape shape).2
  | called _ call ih => exact ih.after call

/-! ## What is recorded for a path -/

/-- What is recorded for a path, which is nothing if it has no identity. -/
def recorded
    (coder : ErasureCoder)
    (path : Path) :
    FileExtents :=
  (coder.identity? path).elim {} coder.extents.file

theorem locate_eq
    (coder : ErasureCoder)
    (path : Path)
    (offset : Nat) :
    coder.locate path offset =
      match (coder.recorded path).blocks.find? offset with
      | some extent => .ok (some extent)
      | none =>
        if (coder.recorded path).size ≤ offset then
          .ok none
        else
          .error (.missingOffset path.render offset) := by
  unfold locate recorded
  cases coder.identity? path with
  | none => simp
  | some id => rfl

theorem trackedSize_eq
    (coder : ErasureCoder)
    (path : Path) :
    coder.trackedSize path = (coder.recorded path).size := by
  unfold trackedSize recorded
  cases coder.identity? path <;> rfl

/-- The identity that a path has or is given is one for which the same is
recorded. -/
theorem Sound.file_identify
    (sound : coder.Sound)
    (path : Path) :
    coder.extents.file (coder.identities.identify path.render).1 =
      coder.recorded path := by
  unfold recorded identity? Identities.identify
  cases coder.identities.lookup path.render with
  | some id => rfl
  | none =>
      change (coder.extents.find? coder.identities.next).getD {} = {}
      rw [sound.fresh _ (Nat.le_refl _)]
      rfl

/-- What is recorded after the file of a path was changed under the identity
that the path has or is given. -/
theorem recorded_identify_set
    (coder : ErasureCoder)
    (path : Path)
    (file : FileExtents) :
    recorded { coder with
      identities := (coder.identities.identify path.render).2
      extents := coder.extents.set
        (coder.identities.identify path.render).1 file } path = file := by
  unfold recorded identity?
  rw [Identities.lookup_identify]
  change Extents.file _ _ = _
  rw [Extents.file, Table.find?_set, if_pos rfl]
  rfl

/-- The answer to an attempt to encode a block, and what is recorded for its
path then, follow from what was recorded for the path. -/
theorem Sound.encode_eq
    (sound : coder.Sound)
    (path : Path)
    (block : Bytes)
    (offset : Nat) :
    (((encode path block offset).execute coder).1,
        (coder.after (.encode path block offset)).recorded path) =
      match coder.fragments block with
      | .error error => (.error error, coder.recorded path)
      | .ok fragments =>
        match (coder.recorded path).startFor? offset with
        | none =>
          (.error (.missingOffset path.render offset), coder.recorded path)
        | some start =>
          let extent : Extent :=
            ⟨start, coder.fragmentLength block.length, block.length⟩
          (.ok (fragments, extent),
            (coder.recorded path).record offset extent) := by
  have file := sound.file_identify path
  rcases coder.encode_cases path block offset with
    ⟨error, failed, ran⟩ |
      ⟨id, identities, fragments, identified, split, placed⟩
  · rw [ErasureCoder.after, ran, failed]
  · rw [split]
    rw [identified] at file
    rw [file] at placed
    rcases placed with ⟨missing, ran⟩ | ⟨start, extent, starts, rfl, ran⟩
    · -- The path may be known only now, but nothing is recorded for it yet.
      rw [missing, ErasureCoder.after, ran]
      have named := coder.identities.lookup_identify path.render
      rw [identified] at named
      refine congrArg (Prod.mk _) ?_
      change (identities.lookup path.render).elim {} coder.extents.file = _
      rw [named]
      exact file
    · have changed := coder.recorded_identify_set path
      rw [identified] at changed
      rw [starts, ErasureCoder.after, ran]
      exact congrArg (Prod.mk _) (changed _)

/-- A block that there is a place for is recorded there. -/
theorem Sound.encode_recorded
    (sound : coder.Sound)
    {path : Path}
    {block : Bytes}
    {fragments : List Bytes}
    {offset start : Nat}
    (split : coder.fragments block = .ok fragments)
    (starts : (coder.recorded path).startFor? offset = some start) :
    ∃ extent,
      extent = ⟨start, coder.fragmentLength block.length, block.length⟩ ∧
      ((encode path block offset).execute coder).1 = .ok (fragments, extent) ∧
        (coder.after (.encode path block offset)).recorded path =
          (coder.recorded path).record offset extent := by
  have ran := sound.encode_eq path block offset
  rw [split, starts] at ran
  rcases Prod.mk.inj ran with ⟨answer, left⟩
  exact ⟨_, rfl, answer, left⟩

/-- A block that is encoded had a place, and is recorded there. -/
theorem Sound.exists_start_of_encode
    (sound : coder.Sound)
    {path : Path}
    {block : Bytes}
    {fragments : List Bytes}
    {offset : Nat}
    {extent : Extent}
    (encoded : ((encode path block offset).execute coder).1 =
      .ok (fragments, extent)) :
    coder.fragments block = .ok fragments ∧
      ∃ start, (coder.recorded path).startFor? offset = some start ∧
        extent = ⟨start, coder.fragmentLength block.length, block.length⟩ ∧
        (coder.after (.encode path block offset)).recorded path =
          (coder.recorded path).record offset extent := by
  have ran := sound.encode_eq path block offset
  rw [encoded] at ran
  cases split : coder.fragments block with
  | error error =>
      rw [split] at ran
      cases (Prod.mk.inj ran).1
  | ok made =>
      cases starts : (coder.recorded path).startFor? offset with
      | none =>
          rw [split, starts] at ran
          cases (Prod.mk.inj ran).1
      | some start =>
          rw [split, starts] at ran
          rcases Prod.mk.inj ran with ⟨answered, left⟩
          rcases Prod.mk.inj (Except.ok.inj answered) with ⟨rfl, rfl⟩
          exact ⟨rfl, start, rfl, rfl, left⟩

theorem Sound.truncate_recorded
    (sound : coder.Sound)
    (path : Path)
    (size : Nat) :
    (coder.truncate path size).1 = (coder.recorded path).cutLength? size ∧
      (coder.after (.truncate path size)).recorded path =
        (coder.recorded path).cut size := by
  have file := sound.file_identify path
  constructor
  · rw [← file]
    rfl
  · rw [← file]
    exact coder.recorded_identify_set path _

/-- Nothing is recorded for a file that was emptied. -/
theorem reset_lays
    (coder : ErasureCoder)
    (path : Path)
    (width : Nat → Nat) :
    FileExtents.Lays width [] ((coder.after (.reset path)).recorded path) := by
  rw [after, reset]
  split
  · rename_i absent
    rw [recorded, absent]
    exact .nil
  · rename_i id found
    have same : identity?
        { coder with extents := (coder.extents.truncate id 0).2 } path =
          some id := found
    rw [recorded, same]
    change FileExtents.Lays width []
      (((coder.extents.set id ((coder.extents.file id).cut 0)).find? id).getD
        {})
    rw [Table.find?_set, if_pos rfl]
    exact .cut_all _

end ErasureCoder

end Strata
