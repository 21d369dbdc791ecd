import Strata.Layer.Devices
import Strata.Proofs.BlockRuns
import Strata.Proofs.RecordedBlocks

/-!
# Books after a failure

The device stage has its coder record a block before the fragments of the block
are written, and a new size before the fragment files are cut.  What the
devices answer changes nothing of that.  So after a write or a cut that failed
the coder says what it said before only where there was nothing to record.
-/

namespace Strata

/-! ## Actions that leave a part of the state -/

namespace Action

variable {σ α β γ : Type}

/-- Whether an action leaves a view of the state as it is, whatever it
answers. -/
def Leaves
    (view : σ → γ)
    (action : Action σ α) :
    Prop :=
  ∀ state, view (action.execute state).2 = view state

theorem Leaves.pure
    (view : σ → γ)
    (value : α) :
    (Pure.pure value : Action σ α).Leaves view :=
  fun _ => rfl

theorem Leaves.throw
    (view : σ → γ)
    (error : Error) :
    (MonadExcept.throw error : Action σ α).Leaves view :=
  fun _ => rfl

theorem Leaves.bind
    {view : σ → γ}
    {action : Action σ α}
    {next : α → Action σ β}
    (first : action.Leaves view)
    (second : ∀ value, (next value).Leaves view) :
    (action >>= next).Leaves view := by
  intro state
  have held := first state
  rw [execute_bind]
  split
  · rename_i value reached ran
    rw [ran] at held
    exact (second value reached).trans held
  · rename_i error reached ran
    rw [ran] at held
    exact held

end Action

/-- An action that is timed runs between two readings of the clock. -/
theorem Session.execute_timed
    {η α : Type}
    (recorder : Nat)
    (operation : String)
    (body : Action (Session η) α)
    {session later : Session η}
    {answer : Except Error α}
    (ran : ((meter recorder).timed operation body).execute session =
      (answer, later)) :
    ∃ started finished : Session η,
      started.storage = session.storage ∧
        body.execute started = (answer, finished) ∧
        finished.storage = later.storage := by
  refine ⟨{ session with ticks := session.ticks + 1 },
    (body.execute { session with ticks := session.ticks + 1 }).2, rfl, ?_, ?_⟩
  · have given := congrArg Prod.fst ran
    exact Prod.ext given rfl
  · exact congrArg (storage ∘ Prod.snd) ran

variable {κ : Type}

namespace Devices

variable
  {devices : Devices κ}
  {coder : ErasureCoder}
  {fleet reached : Fleet κ}
  {session later : Session (Fleet κ)}
  {path : Path}
  {error : Error}

theorem fanOut_leaves_coder
    (devices : Devices κ)
    (requests : List DeviceRequest) :
    (devices.fanOut requests).Leaves Fleet.coder :=
  fun _ => rfl

theorem fanOutDone_leaves_coder
    (devices : Devices κ)
    (requests : List DeviceRequest) :
    (devices.fanOutDone requests).Leaves Fleet.coder :=
  (devices.fanOut_leaves_coder requests).bind fun _ => .pure _ _

/-- A write leaves the coder as it is after encoding the block. -/
theorem coder_write
    (erasure : fleet.coder = .erasure coder)
    (handle : FileHandle)
    (offset : Nat)
    (block : Bytes)
    (pads : List Bytes) :
    ((devices.write path handle offset block pads).execute fleet).2.coder =
      .erasure (coder.after (.encode path block offset)) := by
  rcases fleet with ⟨_, host⟩
  cases erasure
  have encoded : ((Fleet.onCoder
      (Coder.encode path block offset devices.count pads)).execute
        (⟨.erasure coder, host⟩ : Fleet κ)).2.coder =
          .erasure (coder.after (.encode path block offset)) :=
    rfl
  rw [write, Action.execute_bind]
  split
  · -- Neither the devices nor the count of their bytes reach the coder.
    rename_i set placed ran
    rw [ran] at encoded
    refine Eq.trans (Action.Leaves.bind (devices.fanOut_leaves_coder _)
      (fun outcomes => ?_) placed) encoded
    dsimp only
    split
    · exact .bind (.throw _ _) fun _ => .pure _ _
    · exact .pure _ _
  · rename_i refused placed ran
    rw [ran] at encoded
    exact encoded

/-- A write that failed has had the block encoded, whatever failed. -/
theorem coder_writeDrawn
    (erasure : session.storage.coder = .erasure coder)
    {handle : FileHandle}
    {offset : Nat}
    {block : Bytes}
    (failed : (devices.writeDrawn path handle offset block).execute session =
      (.error error, later)) :
    later.storage.coder =
      .erasure (coder.after (.encode path block offset)) := by
  unfold writeDrawn at failed
  split at failed
  · -- An empty block is not written at all.
    cases failed
  · rcases
      Session.drawPads_answers
        (session.storage.coder.padCount devices.count) block.length session with
      ⟨pads, -, -, drawn, drew, kept⟩
    have asked : (Session.onStorage (Fleet.askCoder .ok)).execute session =
        (.ok session.storage.coder, session) :=
      rfl
    rw [Action.execute_bind, asked] at failed
    dsimp only at failed
    rw [Action.execute_bind, drew] at failed
    dsimp only at failed
    rw [← kept] at erasure
    rw [← coder_write erasure handle offset block pads]
    exact (congrArg (fun ran => ran.2.storage.coder) failed).symm

/-- A cut that failed was recorded, and there was a length to cut the fragment
files to. -/
theorem coder_truncate
    (erasure : fleet.coder = .erasure coder)
    {handle : Option FileHandle}
    {size : Nat}
    (failed : (devices.truncate path handle size).execute fleet =
      (.error error, reached)) :
    reached.coder = .erasure (coder.after (.truncate path size)) ∧
      ∃ length, (coder.truncate path size).1 = some length := by
  rcases fleet with ⟨_, host⟩
  cases erasure
  rw [truncate, Action.execute_bind] at failed
  split at failed
  · rename_i cut recorded ran
    have answer : Except.ok (coder.truncate path size).1 = Except.ok cut :=
      congrArg Prod.fst ran
    have left : recorded.coder =
        .erasure (coder.after (.truncate path size)) :=
      (congrArg (Fleet.coder ∘ Prod.snd) ran).symm
    cases cuts : cut with
    | none =>
        -- Nothing is asked of the devices, so nothing fails.
        rw [cuts] at failed
        cases failed
    | some length =>
        rw [cuts] at failed answer
        have kept := congrArg (Fleet.coder ∘ Prod.snd) failed
        refine ⟨kept.symm.trans (Eq.trans ?_ left), length,
          Except.ok.inj answer⟩
        cases handle with
        | some opened => exact devices.fanOutDone_leaves_coder _ _
        | none =>
            exact Action.Leaves.bind (fun _ => rfl)
              (fun places => devices.fanOutDone_leaves_coder _) _
  · rename_i refused recorded ran
    have answer : Except.ok (coder.truncate path size).1 =
        Except.error refused :=
      congrArg Prod.fst ran
    cases answer

/--
In erasure mode, whatever the devices answer: after a write that failed the
coder says what it said before exactly if it refused the block, or the block
was recorded already with the same length and ends inside of the file; after a
cut that failed, exactly if the file was empty.
-/
theorem failed_agree_iff
    (devices : Devices κ)
    (recorder : Nat)
    (reached : coder.Reached)
    (erasure : session.storage.coder = .erasure coder)
    (path : Path)
    (error : Error)
    (later : Session (Fleet κ)) :
    (∀ handle offset block,
      ((Layer.ofDevices devices (Session.meter recorder)).write path handle
          offset block).execute session = (.error error, later) →
        ∃ left, later.storage.coder = .erasure left ∧
          (coder.Agree left ↔
            (∃ refused,
              ((ErasureCoder.encode path block offset).execute coder).1 =
                .error refused) ∨
            ∃ extent, coder.locate path offset = .ok (some extent) ∧
              extent.block = block.length ∧
              offset + block.length ≤ coder.trackedSize path)) ∧
    ∀ handle size,
      ((Layer.ofDevices devices (Session.meter recorder)).truncate path handle
          size).execute session = (.error error, later) →
        ∃ left, later.storage.coder = .erasure left ∧
          (coder.Agree left ↔ coder.trackedSize path = 0) := by
  constructor
  · intro handle offset block ran
    rcases Session.execute_timed recorder _ _ ran with
      ⟨started, finished, same, failed, kept⟩
    rw [← same] at erasure
    refine ⟨_, ?_, reached.agree_encode_iff path block offset⟩
    rw [← kept]
    exact coder_writeDrawn erasure failed
  · intro handle size ran
    rcases coder_truncate erasure (Session.execute_onStorage ran) with
      ⟨left, length, cuts⟩
    exact ⟨_, left, reached.agree_truncate_iff path cuts⟩

/-- Where no device has the files of a handle, a block that has no place is
refused, an empty file is cut and a first block is written.  All of it fails,
and only the block that was to be written is recorded. -/
theorem failed_agree_iff_of_missing_files :
    let coder : ErasureCoder := { code := ⟨2, 1, [[3, 2]]⟩ }
    let stage := Layer.ofDevices onShelf (Session.meter 0)
    (∃ error later left,
      (stage.write ⟨["file"]⟩ ⟨[0, 1, 2]⟩ 8 [1, 2, 3]).execute emptyShelf =
          (.error error, later) ∧
        later.storage.coder = .erasure left ∧ coder.Agree left) ∧
    (∃ error later left,
      (stage.truncate ⟨["file"]⟩ (some ⟨[0, 1, 2]⟩) 0).execute emptyShelf =
          (.error error, later) ∧
        later.storage.coder = .erasure left ∧ coder.Agree left) ∧
    ∃ error later left,
      (stage.write ⟨["file"]⟩ ⟨[0, 1, 2]⟩ 0 [1, 2, 3]).execute emptyShelf =
          (.error error, later) ∧
        later.storage.coder = .erasure left ∧ ¬ coder.Agree left := by
  intro coder stage
  have known := fun error later =>
    failed_agree_iff onShelf 0 (.made ErasureCoder.ofShape_two_one)
      (rfl : emptyShelf.storage.coder = _) ⟨["file"]⟩ error later
  refine ⟨?_, ?_, ?_⟩
  · rcases (known _ _).1 ⟨[0, 1, 2]⟩ 8 [1, 2, 3] rfl with ⟨left, is, agree⟩
    exact ⟨_, _, left, rfl, is, agree.mpr (.inl ⟨_, rfl⟩)⟩
  · rcases (known _ _).2 (some ⟨[0, 1, 2]⟩) 0 rfl with ⟨left, is, agree⟩
    exact ⟨_, _, left, rfl, is, agree.mpr rfl⟩
  · rcases (known _ _).1 ⟨[0, 1, 2]⟩ 0 [1, 2, 3] rfl with ⟨left, is, agree⟩
    refine ⟨_, _, left, rfl, is, mt agree.mp ?_⟩
    rintro (⟨refused, failed⟩ | ⟨extent, found, -⟩)
    · cases failed
    · cases found

/-- A first block that no device can write is recorded all the same. -/
theorem failed_write_recorded :
    ∃ error later left,
      ((Layer.ofDevices onShelf (Session.meter 0)).write ⟨["file"]⟩
          ⟨[0, 1, 2]⟩ 0 [1, 2, 3]).execute emptyShelf =
          (.error error, later) ∧
        later.storage.coder = .erasure left ∧
        emptyShelf.storage.coder.trackedSize? ⟨["file"]⟩ = some 0 ∧
        left.trackedSize ⟨["file"]⟩ = 3 :=
  ⟨_, _, _, rfl, rfl, rfl, rfl⟩

end Devices

end Strata
