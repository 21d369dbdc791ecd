import Strata.Pipeline
import Strata.Proofs.CipherStage
import Strata.Proofs.MirroredLayers

/-!
# Released handles

Some requests come without an open file and open one for themselves.  A layer
that keeps a journal of its handles shows what becomes of them: which ones were
opened, which were worked with, and which were released, in this order of
time.  Nothing is assumed of the layer.  Each of its calls may succeed or fail
as it likes, so that what is said of the journal is said of every way in which
the work with a file can be cut short.
-/

namespace Strata

variable {σ α β : Type}

/-- What happens to a handle. -/
inductive HandleEvent where
  | opened (handle : FileHandle)
  | used (handle : FileHandle)
  | released (handle : FileHandle)
  deriving DecidableEq, Repr

/-- The state of a layer and what happened to its handles, the earliest event
first. -/
structure Journaled
    (σ : Type) where
  state : σ
  events : List HandleEvent := []

namespace Journaled

/-- An action whose answer gives rise to events. -/
def noting
    (events : Except Error α → List HandleEvent)
    (action : Action σ α) :
    Action (Journaled σ) α :=
  Action.ofRun fun journaled =>
    let (answer, state) := action.execute journaled.state
    (answer, { state, events := journaled.events ++ events answer })

/-- An action that concerns no handle. -/
def quietly
    (action : Action σ α) :
    Action (Journaled σ) α :=
  noting (fun _ => []) action

/-- An action that opens a file if it succeeds. -/
def opening
    (action : Action σ FileHandle) :
    Action (Journaled σ) FileHandle :=
  noting (fun answer => answer.toOption.toList.map .opened) action

/-- An action that works with the handle that it is given, if any. -/
def working
    (handle : Option FileHandle)
    (action : Action σ α) :
    Action (Journaled σ) α :=
  noting (fun _ => handle.toList.map .used) action

theorem noting_mirrors
    (events : Except Error α → List HandleEvent)
    (action : Action σ α) :
    (noting events action).Mirrors state action :=
  fun _ => ⟨rfl, rfl⟩

end Journaled

namespace Layer

open Journaled

/-- A layer that keeps a journal of its handles. -/
def journaled
    (layer : Layer σ) :
    Layer (Journaled σ) where
  names := layer.names
  makeDirectory path mode := quietly (layer.makeDirectory path mode)
  removeDirectory path := quietly (layer.removeDirectory path)
  unlink path := quietly (layer.unlink path)
  rename source target := quietly (layer.rename source target)
  symlink target link := quietly (layer.symlink target link)
  readLink path := quietly (layer.readLink path)
  link existing added := quietly (layer.link existing added)
  changeMode path mode := quietly (layer.changeMode path mode)
  changeOwner path owner group :=
    quietly (layer.changeOwner path owner group)
  openDirectory path := quietly (layer.openDirectory path)
  readDirectory path handle := quietly (layer.readDirectory path handle)
  releaseDirectory path handle :=
    quietly (layer.releaseDirectory path handle)
  capacity path := quietly (layer.capacity path)
  create path mode := opening (layer.create path mode)
  openFile path access := opening (layer.openFile path access)
  release path handle :=
    noting (fun _ => [.released handle]) (layer.release path handle)
  read path handle offset length :=
    working handle (layer.read path handle offset length)
  write path handle offset data :=
    working handle (layer.write path handle offset data)
  truncate path handle size := working handle (layer.truncate path handle size)
  fileSize path handle := working handle (layer.fileSize path handle)
  logicalSize path handle reported :=
    working handle (layer.logicalSize path handle reported)
  attributes path handle := working handle (layer.attributes path handle)
  flush path handle := working handle (layer.flush path handle)
  sync path handle dataOnly :=
    working handle (layer.sync path handle dataOnly)

theorem journaled_mirrors
    (lower : Layer σ) :
    lower.journaled.Mirrors Journaled.state lower where
  create _ _ := noting_mirrors _ _
  openFile _ _ := noting_mirrors _ _
  release _ _ := noting_mirrors _ _
  read _ _ _ _ := noting_mirrors _ _
  write _ _ _ _ := noting_mirrors _ _
  truncate _ _ _ := noting_mirrors _ _
  fileSize _ _ := noting_mirrors _ _
  attributes _ _ := noting_mirrors _ _

end Layer

/-! ## What an action adds to the journal -/

/-- From every journal the action adds uses of one handle, and nothing
else. -/
def Action.Uses
    (handle : FileHandle)
    (action : Action (Journaled σ) α) :
    Prop :=
  ∀ before : Journaled σ, ∃ count,
    (action.execute before).2.events =
      before.events ++ List.replicate count (.used handle)

namespace Action.Uses

variable {handle : FileHandle}

theorem of_no_events
    {action : Action (Journaled σ) α}
    (none : ∀ before, (action.execute before).2.events = before.events) :
    Uses handle action :=
  fun before => ⟨0, by rw [none, List.replicate_zero, List.append_nil]⟩

theorem pure
    (value : α) :
    Uses handle (σ := σ) (Pure.pure value) :=
  of_no_events fun _ => rfl

theorem throw
    (error : Error) :
    Uses handle (σ := σ) (α := α) (MonadExcept.throw error) :=
  of_no_events fun _ => rfl

theorem bind
    {action : Action (Journaled σ) α}
    {next : α → Action (Journaled σ) β}
    (first : Uses handle action)
    (second : ∀ value, Uses handle (next value)) :
    Uses handle (action >>= next) := by
  intro before
  rcases first before with ⟨count, added⟩
  rw [Action.execute_bind]
  generalize action.execute before = ran at *
  rcases ran with ⟨answer, reached⟩
  cases answer with
  | error error => exact ⟨count, added⟩
  | ok value =>
      rcases second value reached with ⟨more, continued⟩
      refine ⟨count + more, ?_⟩
      simp only at added continued ⊢
      rw [continued, added, List.append_assoc, List.replicate_append_replicate]

theorem working
    (action : Action σ α) :
    Uses handle (Journaled.working (some handle) action) :=
  fun _ => ⟨1, rfl⟩

theorem congruence
    (handle : FileHandle) :
    Action.Congruence (σ := Journaled σ) (τ := Journaled σ)
      (fun action _ => Uses handle action) where
  pure := pure
  throw := throw
  bind := bind

/-- What a journaled layer does with one open file uses that one. -/
theorem relates
    (lower : Layer σ)
    (path : Path)
    (handle : FileHandle) :
    Layer.Relates (fun action _ => Uses handle action) lower.journaled
      lower.journaled path handle where
  read _ _ := working _
  write _ _ := working _
  truncate _ := working _
  fileSize := working _

end Action.Uses

/-- The action opens a file when it succeeds, and does nothing else to
handles. -/
def Action.Opens
    (action : Action (Journaled σ) FileHandle) :
    Prop :=
  ∀ before : Journaled σ,
    (action.execute before).2.events =
      before.events ++ (action.execute before).1.toOption.toList.map .opened

theorem Journaled.opening_opens
    (action : Action σ FileHandle) :
    (opening action).Opens :=
  fun _ => rfl

/-! ## Brackets -/

/-- The events of a call that opens at most one file: what was opened is
released at the end, once, and only worked with before. -/
def Balanced
    (events : List HandleEvent) :
    Prop :=
  events = [] ∨ ∃ handle count,
    events =
      .opened handle ::
        (List.replicate count (.used handle) ++ [.released handle])

/-- Over a layer with a journal a call answers what it answers over the layer
itself, and whatever that is, its events are balanced. -/
structure Releases
    (journaled : Action (Journaled σ) α)
    (plain : Action σ α) :
    Prop where
  mirrors : journaled.Mirrors Journaled.state plain
  balanced : ∀ before : Journaled σ, ∃ events,
    (journaled.execute before).2.events = before.events ++ events ∧
      Balanced events

/-- A call opens a handle, works with it and releases it.  An error of the
work is reported, whatever the release answers. -/
structure Bracketed
    (lower : Layer σ)
    (path : Path)
    (opening : Action σ FileHandle)
    (body : FileHandle → Action σ α)
    (call : Action σ α) :
    Prop where
  unopened : ∀ {state error reached},
    opening.execute state = (.error error, reached) →
      call.execute state = (.error error, reached)
  failed : ∀ {state handle opened error worked},
    opening.execute state = (.ok handle, opened) →
      (body handle).execute opened = (.error error, worked) →
        call.execute state =
          (.error error, ((lower.release path handle).execute worked).2)
  done : ∀ {state handle opened value worked},
    opening.execute state = (.ok handle, opened) →
      (body handle).execute opened = (.ok value, worked) →
        call.execute state =
          (((lower.release path handle).execute worked).1.map fun _ => value,
            ((lower.release path handle).execute worked).2)

theorem Bracketed.of_finallyDo
    (lower : Layer σ)
    (path : Path)
    (opening : Action σ FileHandle)
    (body : FileHandle → Action σ α) :
    Bracketed lower path opening body
      (do
        let handle ← opening
        Action.finallyDo (body handle) (lower.release path handle)) where
  unopened ran := by
    rw [Action.execute_bind, ran]
  failed opened worked := by
    rw [Action.execute_bind, opened]
    simp only [Action.execute_finallyDo, worked]
  done opened worked := by
    rw [Action.execute_bind, opened]
    simp only [Action.execute_finallyDo, worked]

namespace Releases

/-- A call that opens no file has nothing to release. -/
theorem of_no_events
    {journaled : Action (Journaled σ) α}
    {plain : Action σ α}
    (mirrors : journaled.Mirrors Journaled.state plain)
    (none : ∀ before, (journaled.execute before).2.events = before.events) :
    Releases journaled plain where
  mirrors := mirrors
  balanced before := ⟨[], by rw [none, List.append_nil], .inl rfl⟩

/-- What is done before and after without handles does not count. -/
theorem bind
    {first : Action (Journaled σ) α}
    {plainFirst : Action σ α}
    {next : α → Action (Journaled σ) β}
    {plainNext : α → Action σ β}
    (mirrors : first.Mirrors Journaled.state plainFirst)
    (none : ∀ before, (first.execute before).2.events = before.events)
    (releases : ∀ value, Releases (next value) (plainNext value)) :
    Releases (first >>= next) (plainFirst >>= plainNext) where
  mirrors := mirrors.bind fun value => (releases value).mirrors
  balanced before := by
    have kept := none before
    rw [Action.execute_bind]
    generalize first.execute before = ran at *
    rcases ran with ⟨answer, reached⟩
    cases answer with
    | error error =>
        exact ⟨[], kept.trans (List.append_nil _).symm, .inl rfl⟩
    | ok value =>
        rw [← kept]
        exact (releases value).balanced reached

theorem ofExcept
    {journaled : Action (Journaled σ) α}
    {plain : Action σ α}
    (releases : Releases journaled plain)
    (result : α → Except Error β) :
    Releases (journaled >>= fun value => Action.ofExcept (result value))
      (plain >>= fun value => Action.ofExcept (result value)) where
  mirrors := releases.mirrors.bind fun _ => .ofExcept _
  balanced before := by
    rcases releases.balanced before with ⟨events, added, balanced⟩
    refine ⟨events, ?_, balanced⟩
    rw [Action.execute_bind, ← added]
    rcases journaled.execute before with ⟨_ | value, reached⟩ <;> rfl

/-- A bracket around work with the opened file releases it. -/
theorem finallyDo
    {lower : Layer σ}
    {path : Path}
    {opening : Action (Journaled σ) FileHandle}
    {plainOpening : Action σ FileHandle}
    {body : FileHandle → Action (Journaled σ) α}
    {plainBody : FileHandle → Action σ α}
    (mirrors : opening.Mirrors Journaled.state plainOpening)
    (opens : opening.Opens)
    (bodies : ∀ handle,
      (body handle).Mirrors Journaled.state (plainBody handle))
    (uses : ∀ handle, (body handle).Uses handle) :
    Releases
      (do
        let handle ← opening
        Action.finallyDo (body handle) (lower.journaled.release path handle))
      (do
        let handle ← plainOpening
        Action.finallyDo (plainBody handle) (lower.release path handle)) where
  mirrors := mirrors.bind fun handle =>
    (bodies handle).finallyDo (lower.journaled_mirrors.release path handle)
  balanced before := by
    have first := opens before
    rw [Action.execute_bind]
    generalize opening.execute before = ran at *
    rcases ran with ⟨_ | handle, opened⟩
    · exact ⟨[], first, .inl rfl⟩
    · rcases uses handle opened with ⟨count, worked⟩
      refine ⟨_, ?_, .inr ⟨handle, count, rfl⟩⟩
      simp only [Action.execute_finallyDo]
      generalize (body handle).execute opened = ran at *
      -- The release is noted at the end, whatever the work answered.
      have closed (reached : Journaled σ) :
          ((lower.journaled.release path handle).execute reached).2.events =
            reached.events ++ [.released handle] :=
        rfl
      rcases ran with ⟨_ | value, reached⟩ <;>
        simp_all [Except.toOption]

end Releases

/-! ## Requests without an open file -/

namespace Layer

variable
  (lower : Layer σ)
  (path : Path)

/-- Opens a file for writing, and makes it if there is none. -/
def openOrCreate :
    Action σ FileHandle := do
  match ← Action.attempt (lower.attributes path none) with
  | .ok _ => lower.openFile path .readWrite
  | .error error =>
    if error.isNotFound then
      lower.create path Pipeline.writtenMode
    else
      throw error

/-- Writes at an offset of a file that is opened or made for it. -/
def writeRange
    (offset : Nat)
    (data : Bytes) :
    Action σ Nat := do
  let handle ← lower.openOrCreate path
  Action.finallyDo (lower.write path handle offset data)
    (lower.release path handle)

/-- Reads from an offset of an open file as many bytes as are asked for, or
all up to its end. -/
def readUpTo
    (offset : Nat)
    (length : Option Nat)
    (handle : FileHandle) :
    Action σ Bytes := do
  let length ←
    match length with
    | some length => pure length
    | none => do
      let size ← lower.fileSize path (some handle)
      pure (size - offset)
  lower.read path handle offset length

/-- Reads from an offset of a file that is opened for it. -/
def readRange
    (offset : Nat)
    (length : Option Nat) :
    Action σ Bytes := do
  let handle ← lower.openFile path .readOnly
  Action.finallyDo (lower.readUpTo path offset length handle)
    (lower.release path handle)

theorem openOrCreate_mirrors :
    (lower.journaled.openOrCreate path).Mirrors Journaled.state
      (lower.openOrCreate path) := by
  have mirrors := lower.journaled_mirrors
  refine (mirrors.attributes path none).attempt.bind fun found => ?_
  cases found with
  | ok attributes => exact mirrors.openFile path _
  | error error =>
      simp only
      split
      · exact mirrors.create path _
      · exact .throw _

theorem openOrCreate_opens :
    (lower.journaled.openOrCreate path).Opens := by
  intro before
  have quiet :
      ((lower.journaled.attributes path none).execute before).2.events =
        before.events :=
    List.append_nil _
  rw [openOrCreate, Action.execute_bind, Action.execute_attempt, ← quiet]
  generalize (lower.journaled.attributes path none).execute before = ran
  rcases ran with ⟨error | attributes, reached⟩
  · simp only
    split
    · exact Journaled.opening_opens _ reached
    · exact (List.append_nil _).symm
  · exact Journaled.opening_opens _ reached

theorem readUpTo_mirrors
    (offset : Nat)
    (length : Option Nat)
    (handle : FileHandle) :
    (lower.journaled.readUpTo path offset length handle).Mirrors
      Journaled.state (lower.readUpTo path offset length handle) := by
  have mirrors := lower.journaled_mirrors
  cases length with
  | some length => exact mirrors.read path handle offset length
  | none =>
      exact (mirrors.fileSize path _).bind fun size =>
        mirrors.read path handle offset (size - offset)

theorem readUpTo_uses
    (offset : Nat)
    (length : Option Nat)
    (handle : FileHandle) :
    (lower.journaled.readUpTo path offset length handle).Uses handle := by
  cases length with
  | some length => exact .working _
  | none => exact .bind (.working _) fun size => .working _

/-! ## The sizes that a frame decides -/

theorem sizeOf_releases
    (framer : Framer)
    (stored : Nat) :
    Releases (Cipher.sizeOf framer lower.journaled path none stored)
      (Cipher.sizeOf framer lower path none stored) := by
  unfold Cipher.sizeOf
  rcases framer.logicalSize_known_or_read stored with
    ⟨size, known⟩ | ⟨offset, length, reads⟩
  · rw [known, known]
    exact .of_no_events (.pure size) fun _ => rfl
  · rw [reads, reads]
    refine Releases.ofExcept (Releases.finallyDo ?_ ?_ ?_ ?_) _
    · exact lower.journaled_mirrors.openFile path _
    · exact Journaled.opening_opens _
    · exact fun handle =>
        lower.journaled_mirrors.read path handle offset length
    · exact fun handle => .working _

/-- A logical size is known at once, or its frame is read in a bracket. -/
theorem sizeOf_known_or_bracketed
    (framer : Framer)
    (stored : Nat) :
    (∃ size, Cipher.sizeOf framer lower path none stored = return size) ∨
      ∃ offset length fetch,
        Bracketed lower path (lower.openFile path .readOnly)
            (lower.read path · offset length) fetch ∧
          Cipher.sizeOf framer lower path none stored =
            fetch >>= fun frame =>
              Action.ofExcept (framer.sizeWith stored frame) := by
  unfold Cipher.sizeOf
  rcases framer.logicalSize_known_or_read stored with
    ⟨size, known⟩ | ⟨offset, length, reads⟩
  · exact .inl ⟨size, known _⟩
  · exact .inr ⟨offset, length, _, .of_finallyDo .., reads _⟩

theorem attributesOf_releases
    (framer : Framer) :
    Releases (Cipher.attributesOf framer lower.journaled path none)
      (Cipher.attributesOf framer lower path none) := by
  refine Releases.bind (lower.journaled_mirrors.attributes path none)
    (fun _ => List.append_nil _) fun found => ?_
  split
  · exact (sizeOf_releases lower path framer _).ofExcept
      fun size => .ok { found with size }
  · exact .of_no_events (.pure found) fun _ => rfl

/-! ## Every handle that is opened is released -/

/--
A request that comes without an open file opens one for itself, and releases
it before it answers, whatever the calls in between do: the journal of the
layer below is balanced.  An error of the work is reported in preference to
one of the release.  The stages are over any layer, and so are the transfers
of whole ranges, which a pipeline offers at its top.
-/
theorem opened_handles_released :
    (∀ (size : BlockSize) (target : Nat),
      Releases ((lower.journaled.aligned size).truncate path none target)
          ((lower.aligned size).truncate path none target) ∧
        Bracketed lower path (lower.openFile path .readWrite)
          (Align.truncateOpen size lower path · target)
          ((lower.aligned size).truncate path none target)) ∧
      (∀ (framer : Framer) (draw : Action σ Bytes) (meter : Meter σ)
          (drawJournaled : Action (Journaled σ) Bytes)
          (meterJournaled : Meter (Journaled σ)),
        let stage := lower.framed framer draw meter
        let journaled :=
          lower.journaled.framed framer drawJournaled meterJournaled
        Releases (journaled.fileSize path none) (stage.fileSize path none) ∧
          Releases (journaled.attributes path none)
            (stage.attributes path none) ∧
          (∀ stored,
            Releases (journaled.logicalSize path none stored)
              (stage.logicalSize path none stored)) ∧
          stage.fileSize path none =
            (lower.fileSize path none >>= stage.logicalSize path none) ∧
          stage.attributes path none =
            (do
              let found ← lower.attributes path none
              if found.isFile then
                let size ← stage.logicalSize path none found.size
                return { found with size }
              else
                return found) ∧
          ∀ stored,
            (∃ size, stage.logicalSize path none stored = return size) ∨
              ∃ offset length fetch,
                Bracketed lower path (lower.openFile path .readOnly)
                    (lower.read path · offset length) fetch ∧
                  stage.logicalSize path none stored =
                    fetch >>= fun frame =>
                      Action.ofExcept (framer.sizeWith stored frame)) ∧
      (∀ (offset : Nat) (data : Bytes),
        Releases (lower.journaled.writeRange path offset data)
            (lower.writeRange path offset data) ∧
          Bracketed lower path (lower.openOrCreate path)
            (lower.write path · offset data)
            (lower.writeRange path offset data)) ∧
      (∀ (offset : Nat) (length : Option Nat),
        Releases (lower.journaled.readRange path offset length)
            (lower.readRange path offset length) ∧
          Bracketed lower path (lower.openFile path .readOnly)
            (lower.readUpTo path offset length)
            (lower.readRange path offset length)) ∧
      ∀ {κ : Type} (pipeline : Pipeline κ) (text : String) (offset : Nat),
        (∀ data, pipeline.writeRange text offset data =
          Pipeline.atPath text (pipeline.top.writeRange · offset data)) ∧
          ∀ length, pipeline.readRange text offset length =
            Pipeline.atPath text (pipeline.top.readRange · offset length) := by
  have mirrors := lower.journaled_mirrors
  refine ⟨fun size target => ⟨?_, .of_finallyDo ..⟩, ?sizes,
    fun offset data => ⟨?_, .of_finallyDo ..⟩,
    fun offset length => ⟨?_, .of_finallyDo ..⟩,
    fun pipeline text offset => ⟨fun _ => rfl, fun _ => rfl⟩⟩
  · refine .finallyDo (mirrors.openFile path _)
      (Journaled.opening_opens _) (fun handle => ?_) fun handle => ?_
    · exact (mirrors.relates path handle).truncateOpen
        (Action.Mirrors.congruence _) size target
    · exact (Action.Uses.relates lower path handle).truncateOpen
        (Action.Uses.congruence handle) size target
  case sizes =>
    intro framer draw meter drawJournaled meterJournaled
    refine ⟨?_, attributesOf_releases lower path framer,
      sizeOf_releases lower path framer, rfl, rfl,
      sizeOf_known_or_bracketed lower path framer⟩
    exact .bind (mirrors.fileSize path none) (fun _ => List.append_nil _)
      (sizeOf_releases lower path framer)
  · exact .finallyDo (lower.openOrCreate_mirrors path)
      (lower.openOrCreate_opens path)
      (fun handle => mirrors.write path handle offset data)
      fun handle => .working _
  · exact .finallyDo (mirrors.openFile path _)
      (Journaled.opening_opens _) (lower.readUpTo_mirrors path offset length)
      (lower.readUpTo_uses path offset length)

end Layer

end Strata
