import Strata.Layer.Devices
import Strata.Proofs.DevicesInTurn

/-!
# Calls that change names

The calls of a layer that give or take names, made one after the other whatever
became of those before.  A call of the device stage succeeds where the devices
do what it asks of them, and keeps what every request to a device keeps.
-/

namespace Strata

/-- A call that gives or takes names. -/
inductive NameCall where
  | makeDirectory (path : Path) (mode : Nat)
  | create (path : Path) (mode : Nat)
  | symlink (target : String) (link : Path)
  | rename (source target : Path)
  | link (existing added : Path)
  | unlink (path : Path)
  | removeDirectory (path : Path)
  deriving DecidableEq, Repr

namespace Layer

variable {σ : Type}

/-- Makes a call of a layer. -/
def call
    (layer : Layer σ) :
    NameCall → Action σ Unit
  | .makeDirectory path mode => layer.makeDirectory path mode
  | .create path mode => do
    let _ ← layer.create path mode
  | .symlink target link => layer.symlink target link
  | .rename source target => layer.rename source target
  | .link existing added => layer.link existing added
  | .unlink path => layer.unlink path
  | .removeDirectory path => layer.removeDirectory path

/-- The state that calls leave, each of them made whatever became of those
before it. -/
def afterCalls
    (layer : Layer σ)
    (calls : List NameCall)
    (state : σ) :
    σ :=
  calls.foldl (fun reached call => ((layer.call call).execute reached).2)
    state

theorem afterCalls_preserves
    {layer : Layer σ}
    {holds : σ → Prop}
    (preserves : ∀ call, (layer.call call).Preserves holds)
    (calls : List NameCall)
    {state : σ}
    (held : holds state) :
    holds (layer.afterCalls calls state) := by
  induction calls generalizing state with
  | nil => exact held
  | cons call calls ih => exact ih (preserves call state held)

theorem afterCalls_cons_of_answers
    {layer : Layer σ}
    {call : NameCall}
    {state : σ}
    {holds : σ → Prop}
    (answers : (layer.call call).Answers state () holds) :
    ∃ reached, holds reached ∧ ∀ calls,
      layer.afterCalls (call :: calls) state =
        layer.afterCalls calls reached := by
  rcases answers with ⟨reached, ran, held⟩
  refine ⟨reached, held, fun calls => ?_⟩
  rw [afterCalls, List.foldl_cons, ran]
  rfl

section Answers

variable
  {κ : Type}
  {devices : Devices κ}
  {meter : Meter (Session (Fleet κ))}
  {session : Session (Fleet κ)}
  {path : Path}
  {mode : Nat}
  {final : κ}

/-- A directory is made where every device makes one. -/
theorem makeDirectory_answers
    {outcomes : List Outcome}
    (served : Fanout.Served devices.backend
      ((devices.barePlaces path).map (.makeDirectory · mode)) outcomes
      session.storage.host final) :
    ((Layer.ofDevices devices meter).call (.makeDirectory path mode)).Answers
      session () fun left => left.storage = ⟨session.storage.coder, final⟩ :=
  Session.onStorage_answers (Devices.fanOutDone_answers
    (by simp [DeviceRequest.isTransfer]) served)

/-- A link is made where every device makes one. -/
theorem symlink_answers
    {target : String}
    {outcomes : List Outcome}
    (served : Fanout.Served devices.backend
      (devices.roots.map fun root =>
        .symlink (Devices.linkTarget root target) (Devices.resolve root path))
      outcomes session.storage.host final) :
    ((Layer.ofDevices devices meter).symlink target path).Answers session ()
      fun left => left.storage = ⟨session.storage.coder, final⟩ :=
  Session.onStorage_answers (Devices.fanOutDone_answers
    (by simp [DeviceRequest.isTransfer]) served)

/-- A file is made where every device makes one. -/
theorem create_answers
    {files : List Descriptor}
    (served : Fanout.Served devices.backend
      ((devices.filePlaces session.storage.coder path).map (.create · mode))
      (files.map .opened) session.storage.host final) :
    ((Layer.ofDevices devices meter).call (.create path mode)).Answers
      session () fun left =>
        left.storage = ⟨session.storage.coder.onCreate path, final⟩ := by
  rcases Devices.fanOut_answers (by simp [DeviceRequest.isTransfer]) served
    with ⟨_, ran, rfl⟩
  have created : (devices.create path mode).Answers session.storage ⟨files⟩
      fun left =>
        left = ⟨session.storage.coder.onCreate path, final⟩ := by
    refine ⟨_, ?_, rfl⟩
    simp only [Devices.create, Devices.files, Devices.openAll,
      Action.execute_bind, Action.execute_ofRun, Action.execute_ofExcept,
      Action.execute_pure, Fleet.askCoder, Fleet.tellCoder, ran,
      Devices.descriptors_opened]
  exact (Session.onStorage_answers created).bind fun _ held => .pure held

/-- What a directory and a file leave where every device makes both. -/
theorem storage_afterCalls_of_served
    {file : Path}
    {permissions : Nat}
    {outcomes : List Outcome}
    {files : List Descriptor}
    {made : κ}
    (makes : Fanout.Served devices.backend
      ((devices.barePlaces path).map (.makeDirectory · mode)) outcomes
      session.storage.host made)
    (fills : Fanout.Served devices.backend
      ((devices.filePlaces session.storage.coder file).map
        (.create · permissions))
      (files.map .opened) made final) :
    ((Layer.ofDevices devices meter).afterCalls
        [.makeDirectory path mode, .create file permissions]
        session).storage =
      ⟨session.storage.coder.onCreate file, final⟩ := by
  rcases afterCalls_cons_of_answers (makeDirectory_answers makes) with
    ⟨middle, held, first⟩
  rcases middle with ⟨storage, registry, ticks, tape⟩
  obtain rfl := held
  have filled := @create_answers κ devices meter
    ⟨⟨session.storage.coder, made⟩, registry, ticks, tape⟩ file permissions _
    files fills
  rcases afterCalls_cons_of_answers filled with ⟨last, left, second⟩
  rw [first, second]
  exact left

end Answers

end Layer

/-! ## What calls keep -/

section Preserved

variable
  {κ α : Type}
  {holds : κ → Prop}

theorem Fleet.onHost_preserves
    {action : Action κ α}
    (preserves : action.Preserves holds) :
    (Fleet.onHost action).Preserves fun fleet => holds fleet.host :=
  fun fleet held => preserves fleet.host held

theorem Fleet.askCoder_preserves
    (question : Coder → Except Error α) :
    (Fleet.askCoder question).Preserves
      fun fleet : Fleet κ => holds fleet.host :=
  fun _ held => held

theorem Fleet.askHost_preserves
    (question : κ → Except HostError α) :
    (Fleet.askHost question).Preserves fun fleet => holds fleet.host :=
  fun _ held => held

theorem Fleet.tellCoder_preserves
    (change : Coder → Coder) :
    (Fleet.tellCoder change).Preserves
      fun fleet : Fleet κ => holds fleet.host :=
  fun _ held => held

variable {devices : Devices κ}

theorem Devices.fanOut_preserves
    {requests : List DeviceRequest}
    (kept : ∀ request ∈ requests, ∀ state, holds state →
      holds (devices.backend.perform request state).2) :
    (devices.fanOut requests).Preserves fun fleet => holds fleet.host :=
  Fleet.onHost_preserves (Fanout.dispatch_preserves kept)

theorem Devices.fanOutDone_preserves
    {requests : List DeviceRequest}
    (kept : ∀ request ∈ requests, ∀ state, holds state →
      holds (devices.backend.perform request state).2) :
    (devices.fanOutDone requests).Preserves fun fleet => holds fleet.host :=
  (Devices.fanOut_preserves kept).bind fun _ => .pure _

/-- What every request to a device keeps, the calls of the stage keep. -/
theorem Layer.ofDevices_call_preserves
    (kept : ∀ request state, holds state →
      holds (devices.backend.perform request state).2)
    (meter : Meter (Session (Fleet κ)))
    (call : NameCall) :
    ((Layer.ofDevices devices meter).call call).Preserves
      fun session => holds session.storage.host := by
  have asked (requests : List DeviceRequest) :
      (devices.fanOut requests).Preserves fun fleet => holds fleet.host :=
    Devices.fanOut_preserves fun request _ => kept request
  have done (requests : List DeviceRequest) :
      (devices.fanOutDone requests).Preserves fun fleet => holds fleet.host :=
    Devices.fanOutDone_preserves fun request _ => kept request
  have files (path : Path) :
      (devices.files path).Preserves fun fleet => holds fleet.host :=
    Fleet.askCoder_preserves _
  have told (change : Coder → Coder) :
      (Fleet.tellCoder change).Preserves
        fun fleet : Fleet κ => holds fleet.host :=
    Fleet.tellCoder_preserves change
  cases call with
  | makeDirectory path mode => exact Session.onStorage_preserves (done _)
  | removeDirectory path => exact Session.onStorage_preserves (done _)
  | symlink target link => exact Session.onStorage_preserves (done _)
  | create path mode =>
      have made : (devices.create path mode).Preserves
          fun fleet => holds fleet.host := by
        refine (files path).bind fun places => .bind ?_ fun _ =>
          (told _).bind fun _ => .pure _
        exact (asked _).bind fun _ =>
          (Action.Preserves.ofExcept _).bind fun _ => .pure _
      exact (Session.onStorage_preserves made).bind fun _ => .pure _
  | unlink path =>
      exact Session.onStorage_preserves
        ((files path).bind fun _ => (done _).bind fun _ => told _)
  | link existing added =>
      exact Session.onStorage_preserves ((files existing).bind fun _ =>
        (files added).bind fun _ => (done _).bind fun _ => told _)
  | rename source target =>
      have known : (devices.primaryAttributes source).Preserves
          fun fleet => holds fleet.host :=
        (Action.Preserves.ofExcept _).bind fun _ =>
          (Fleet.askCoder_preserves _).bind fun _ =>
            Fleet.askHost_preserves _
      have renamed : (devices.rename source target).Preserves
          fun fleet => holds fleet.host := by
        refine known.bind fun attributes => ?_
        split
        · exact (done _).bind fun _ => told _
        · exact (files source).bind fun _ => (files target).bind fun _ =>
            (done _).bind fun _ => told _
      exact Session.onStorage_preserves renamed

end Preserved

end Strata
