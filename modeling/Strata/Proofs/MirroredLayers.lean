import Strata.Layer.Align
import Strata.Proofs.Execution
import Strata.Proofs.FlatFile

/-!
# Mirrored layers

A layer may work on more than another one needs, say on notes about its calls
beside the state proper.  It mirrors the other layer when each of its requests
answers the same and does the same to that part of its states.  A stage over a
layer then mirrors the stage over the layer that is mirrored, so that what is
found out with the help of notes is true without them.
-/

namespace Strata

variable {σ τ α β : Type}

/-! ## Relations between actions -/

/-- A relation between actions on two kinds of states that goes through
sequencing. -/
structure Action.Congruence
    (Related : ∀ {α : Type}, Action τ α → Action σ α → Prop) :
    Prop where
  pure : ∀ {α : Type} (value : α),
    Related (Pure.pure value) (Pure.pure value)
  throw : ∀ {α : Type} (error : Error),
    Related (α := α) (MonadExcept.throw error) (MonadExcept.throw error)
  bind : ∀ {α β : Type} {one : Action τ α} {other : Action σ α}
    {oneNext : α → Action τ β} {otherNext : α → Action σ β},
    Related one other →
      (∀ value, Related (oneNext value) (otherNext value)) →
        Related (one >>= oneNext) (other >>= otherNext)

/-- The requests of two layers on one open file are related. -/
structure Layer.Relates
    (Related : ∀ {α : Type}, Action τ α → Action σ α → Prop)
    (one : Layer τ)
    (other : Layer σ)
    (path : Path)
    (handle : FileHandle) :
    Prop where
  read : ∀ offset length,
    Related (one.read path handle offset length)
      (other.read path handle offset length)
  write : ∀ offset data,
    Related (one.write path handle offset data)
      (other.write path handle offset data)
  truncate : ∀ size,
    Related (one.truncate path (some handle) size)
      (other.truncate path (some handle) size)
  fileSize :
    Related (one.fileSize path (some handle))
      (other.fileSize path (some handle))

namespace Layer.Relates

open Align

variable
  {Related : ∀ {α : Type}, Action τ α → Action σ α → Prop}
  (congruence : Action.Congruence Related)
  {one : Layer τ}
  {other : Layer σ}
  {path : Path}
  {handle : FileHandle}
  (relates : Relates Related one other path handle)
  (size : BlockSize)

include congruence relates

theorem readFrom
    (offset wanted : Nat)
    (done : List Bytes) :
    Related (readFrom size one path handle offset wanted done)
      (readFrom size other path handle offset wanted done) := by
  have request (offset length : Nat) :
      Related (requestLength size one path handle offset length)
        (requestLength size other path handle offset length) := by
    unfold requestLength
    dsimp only
    split
    · exact congruence.pure _
    · exact congruence.bind relates.fileSize fun _ => congruence.pure _
  have piece (offset length : Nat) :
      Related (readPiece size one path handle offset length)
        (readPiece size other path handle offset length) :=
    congruence.bind (request offset length) fun _ =>
      congruence.bind (relates.read _ _) fun _ => congruence.pure _
  induction offset, wanted, done using readFrom.induct size with
  | case1 offset done =>
      rw [Align.readFrom, Align.readFrom, if_pos rfl, if_pos rfl]
      exact congruence.pure _
  | case2 offset wanted done some length ih =>
      rw [Align.readFrom, Align.readFrom, if_neg some, if_neg some]
      refine congruence.bind (piece offset _) fun found => ?_
      split
      · exact congruence.pure _
      · exact ih found

theorem writePiece
    (offset : Nat)
    (data : Bytes) :
    Related (writePiece size one path handle offset data)
      (writePiece size other path handle offset data) := by
  have rewrite (block inside stored : Nat) :
      Related (rewriteBlock size one path handle block inside stored data)
        (rewriteBlock size other path handle block inside stored data) := by
    refine congruence.bind (relates.read _ _) fun present => ?_
    refine congruence.bind (relates.write _ _) fun written => ?_
    split <;> exact congruence.pure _
  unfold Align.writePiece
  dsimp only
  split
  · exact relates.write _ _
  · refine congruence.bind relates.fileSize fun stored => ?_
    split
    · split
      · exact congruence.throw _
      · exact relates.write _ _
    · split
      · exact relates.write _ _
      · exact rewrite _ _ _

theorem writeFrom
    (offset : Nat)
    (data : Bytes)
    (done : Nat) :
    Related (writeFrom size one path handle offset data done)
      (writeFrom size other path handle offset data done) := by
  induction offset, data, done using writeFrom.induct size with
  | case1 offset done =>
      rw [Align.writeFrom, Align.writeFrom, dif_pos rfl, dif_pos rfl]
      exact congruence.pure _
  | case2 offset data done nonempty piece ih =>
      rw [Align.writeFrom, Align.writeFrom, dif_neg nonempty,
        dif_neg nonempty]
      refine congruence.bind (writePiece congruence relates size offset _)
        fun written => ?_
      split
      · exact congruence.pure _
      · exact ih written

theorem truncateOpen
    (target : Nat) :
    Related (truncateOpen size one path handle target)
      (truncateOpen size other path handle target) := by
  have fill (offset : Nat) :
      Related (fillTo size one path handle target offset)
        (fillTo size other path handle target offset) := by
    induction offset using fillTo.induct target with
    | case1 offset before length ih =>
        rw [fillTo, fillTo, if_pos before, if_pos before]
        refine congruence.bind (writeFrom congruence relates size _ _ _)
          fun written => ?_
        split
        · exact congruence.throw _
        · exact ih written
    | case2 offset reached =>
        rw [fillTo, fillTo, if_neg reached, if_neg reached]
        exact congruence.pure _
  have kept :
      Related (keptPart size one path handle target)
        (keptPart size other path handle target) := by
    refine congruence.bind (readFrom congruence relates size _ _ _)
      fun kept => ?_
    split
    · exact congruence.throw _
    · exact congruence.pure _
  have cut (rest : Bytes) :
      Related
        (do
          one.truncate path (some handle) target
          if !rest.isEmpty then
            let written ← one.write path handle (size.start target) rest
            if written < rest.length then
              throw (.shortTransfer rest.length written))
        (do
          other.truncate path (some handle) target
          if !rest.isEmpty then
            let written ← other.write path handle (size.start target) rest
            if written < rest.length then
              throw (.shortTransfer rest.length written)) := by
    refine congruence.bind (relates.truncate _) fun _ => ?_
    split
    · refine congruence.bind (relates.write _ _) fun written => ?_
      split
      · exact congruence.throw _
      · exact congruence.pure _
    · exact congruence.pure _
  refine congruence.bind relates.fileSize fun current => ?_
  dsimp only
  split
  · exact congruence.bind (fill current) fun _ => cut []
  · split
    · exact congruence.bind kept fun rest => cut rest
    · exact cut []

end Layer.Relates

/-! ## Mirroring actions -/

/-- An action does on a part of its states what another one does on all of
its own. -/
def Action.Mirrors
    (part : τ → σ)
    (whole : Action τ α)
    (plain : Action σ α) :
    Prop :=
  ∀ state : τ,
    (whole.execute state).1 = (plain.execute (part state)).1 ∧
      part (whole.execute state).2 = (plain.execute (part state)).2

namespace Action.Mirrors

variable {part : τ → σ}

theorem pure
    (value : α) :
    Mirrors part (Pure.pure value) (Pure.pure value) :=
  fun _ => ⟨rfl, rfl⟩

theorem throw
    (error : Error) :
    Mirrors part (α := α) (MonadExcept.throw error)
      (MonadExcept.throw error) :=
  fun _ => ⟨rfl, rfl⟩

theorem ofExcept
    (value : Except Error α) :
    Mirrors part (Action.ofExcept value) (Action.ofExcept value) :=
  fun _ => ⟨rfl, rfl⟩

theorem attempt
    {whole : Action τ α}
    {plain : Action σ α}
    (mirrors : Mirrors part whole plain) :
    Mirrors part whole.attempt plain.attempt := by
  intro state
  rw [Action.execute_attempt, Action.execute_attempt]
  exact ⟨congrArg Except.ok (mirrors state).1, (mirrors state).2⟩

theorem bind
    {whole : Action τ α}
    {plain : Action σ α}
    {wholeNext : α → Action τ β}
    {plainNext : α → Action σ β}
    (first : Mirrors part whole plain)
    (second : ∀ value, Mirrors part (wholeNext value) (plainNext value)) :
    Mirrors part (whole >>= wholeNext) (plain >>= plainNext) := by
  intro state
  rcases first state with ⟨answer, left⟩
  rw [Action.execute_bind, Action.execute_bind]
  generalize whole.execute state = one at *
  generalize plain.execute (part state) = other at *
  rcases one with ⟨oneAnswer, reached⟩
  rcases other with ⟨otherAnswer, otherState⟩
  obtain rfl : oneAnswer = otherAnswer := answer
  obtain rfl : part reached = otherState := left
  cases oneAnswer with
  | error error => exact ⟨rfl, rfl⟩
  | ok value => exact second value reached

theorem finallyDo
    {whole : Action τ α}
    {plain : Action σ α}
    {wholeClosing : Action τ Unit}
    {plainClosing : Action σ Unit}
    (body : Mirrors part whole plain)
    (closing : Mirrors part wholeClosing plainClosing) :
    Mirrors part (Action.finallyDo whole wholeClosing)
      (Action.finallyDo plain plainClosing) := by
  unfold Action.finallyDo
  refine body.attempt.bind fun answer => ?_
  refine closing.attempt.bind fun closed => ?_
  refine (ofExcept answer).bind fun value => ?_
  exact (ofExcept closed).bind fun _ => .pure value

theorem congruence
    (part : τ → σ) :
    Action.Congruence (Mirrors part) where
  pure := pure
  throw := throw
  bind := bind

end Action.Mirrors

/-! ## Mirroring layers -/

namespace Layer

/-- A layer mirrors another one in all requests on files. -/
structure Mirrors
    (part : τ → σ)
    (whole : Layer τ)
    (plain : Layer σ) :
    Prop where
  create : ∀ path mode,
    (whole.create path mode).Mirrors part (plain.create path mode)
  openFile : ∀ path access,
    (whole.openFile path access).Mirrors part (plain.openFile path access)
  release : ∀ path handle,
    (whole.release path handle).Mirrors part (plain.release path handle)
  read : ∀ path handle offset length,
    (whole.read path handle offset length).Mirrors part
      (plain.read path handle offset length)
  write : ∀ path handle offset data,
    (whole.write path handle offset data).Mirrors part
      (plain.write path handle offset data)
  truncate : ∀ path handle size,
    (whole.truncate path handle size).Mirrors part
      (plain.truncate path handle size)
  fileSize : ∀ path handle,
    (whole.fileSize path handle).Mirrors part (plain.fileSize path handle)
  attributes : ∀ path handle,
    (whole.attributes path handle).Mirrors part (plain.attributes path handle)

variable
  {part : τ → σ}
  {whole : Layer τ}
  {plain : Layer σ}
  (mirrors : whole.Mirrors part plain)
  (path : Path)

include mirrors

theorem Mirrors.withHandle
    (handle : Option FileHandle)
    (access : Access)
    {wholeBody : FileHandle → Action τ α}
    {plainBody : FileHandle → Action σ α}
    (bodies : ∀ opened,
      (wholeBody opened).Mirrors part (plainBody opened)) :
    (whole.withHandle path handle access wholeBody).Mirrors part
      (plain.withHandle path handle access plainBody) := by
  cases handle with
  | some given => exact bodies given
  | none =>
      refine (mirrors.openFile path access).bind fun opened => ?_
      exact (bodies opened).finallyDo (mirrors.release path opened)

theorem Mirrors.perform
    (request : FileRequest) :
    (whole.perform path request).Mirrors part (plain.perform path request) := by
  cases request with
  | read handle offset length =>
      exact (mirrors.read path handle offset length).bind fun _ => .pure _
  | write handle offset data =>
      exact (mirrors.write path handle offset data).bind fun _ => .pure _
  | truncate handle size =>
      exact (mirrors.truncate path handle size).bind fun _ => .pure _
  | fileSize handle =>
      exact (mirrors.fileSize path handle).bind fun _ => .pure _
  | attributes handle =>
      exact (mirrors.attributes path handle).bind fun _ => .pure _

theorem Mirrors.relates
    (handle : FileHandle) :
    Relates (Action.Mirrors part) whole plain path handle where
  read := mirrors.read path handle
  write := mirrors.write path handle
  truncate := mirrors.truncate path (some handle)
  fileSize := mirrors.fileSize path (some handle)

/-- The aligning stage over a layer mirrors the one over the layer that is
mirrored. -/
theorem Mirrors.aligned
    (size : BlockSize) :
    (whole.aligned size).Mirrors part (plain.aligned size) where
  create := mirrors.create
  openFile path _ := mirrors.openFile path _
  release := mirrors.release
  read path handle offset length :=
    (mirrors.relates path handle).readFrom
      (Action.Mirrors.congruence part) size offset length []
  write path handle offset data :=
    (mirrors.relates path handle).writeFrom
      (Action.Mirrors.congruence part) size offset data 0
  truncate path handle target :=
    mirrors.withHandle path handle _ fun opened =>
      (mirrors.relates path opened).truncateOpen
        (Action.Mirrors.congruence part) size target
  fileSize := mirrors.fileSize
  attributes := mirrors.attributes

end Layer

end Strata
