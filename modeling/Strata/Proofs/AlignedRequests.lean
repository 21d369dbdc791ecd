import Strata.Proofs.Assembly
import Strata.Proofs.BlockCosts
import Strata.Proofs.BlockRequests
import Strata.Proofs.DeviceBlocks

/-!
# The discipline of the aligning stage

The layer below the aligning stage may rely on what it is asked for: reads and
writes are about one block each and take in all that is stored of it, and a
write spends no more than one question, one read and one write on a block that
it covers in part, and a single write on a block that it covers as a whole.

Where a configuration frames blocks, the layer that relies on this is the
cipher stage: it stands right below the aligning stage and has blocks of the
same size.
-/

namespace Strata

namespace Layer

variable
  {σ : Type}
  {size : BlockSize}
  {lower : Layer σ}
  {path : Path}
  {Handles : FileHandle → Prop}
  {Places Cuts : Nat → Prop}
  {Holds Sized : Nat → σ → Prop}

/--
What the layer below the aligning stage sees of one request that is made of it
in some state.  The calls are those of the stage over the watched layer, and
watching changes neither the answer nor the state that is left behind.
-/
structure Disciplined
    (size : BlockSize)
    (lower : Layer σ)
    (path : Path)
    (Places : Nat → Prop)
    (Sized : Nat → σ → Prop)
    (request : FileRequest)
    (state : σ) :
    Prop where
  same :
    (((lower.watched.aligned size).perform path request).execute
        ⟨state, []⟩).1 =
      (((lower.aligned size).perform path request).execute state).1
  left :
    (((lower.watched.aligned size).perform path request).execute
        ⟨state, []⟩).2.state =
      (((lower.aligned size).perform path request).execute state).2
  keeps : ∀ call ∈ (((lower.watched.aligned size).perform path request).execute
      ⟨state, []⟩).2.calls,
    Noted.KeepsToBlock size Places Sized call
  costs : ∀ handle offset data, request = .write handle offset data →
    SpentByBlock size offset data.length
      (∃ given, (((lower.aligned size).perform path request).execute state).1 =
        .ok given)
      (((lower.watched.aligned size).perform path request).execute
        ⟨state, []⟩).2.made

/-- A write that succeeds over a layer that moves blocks has written all of
its bytes. -/
theorem MovesBlocks.written_all
    (moves : MovesBlocks lower path size Handles Places Cuts Holds Sized)
    {handle : FileHandle}
    (good : Handles handle)
    {held offset : Nat}
    {data : Bytes}
    {before after : Noted σ}
    {answer : FileAnswer}
    (known : Holds held before.state)
    (ran : ((lower.watched.aligned size).perform path
      (.write handle offset data)).execute before = (.ok answer, after)) :
    answer = .written data.length := by
  rcases Action.execute_bind_eq_ok ran with ⟨count, reached, wrote, last⟩
  cases last
  have orderly := orderly_writeFrom moves good offset data 0
    (Known.continues_whole held)
  rcases orderly.answers before count after known wrote with ⟨_, _, all, -⟩
  rw [all, Nat.zero_add]

/-- Over a layer that moves blocks every request to the aligning stage is
disciplined. -/
theorem aligned_disciplined
    (moves : MovesBlocks lower path size Handles Places Cuts Holds Sized)
    {request : FileRequest}
    (good : ∀ given ∈ request.handle?, Handles given)
    {held : Nat}
    {state : σ}
    (known : Holds held state)
    (within : ∀ target ≤ held, Cuts target) :
    Disciplined size lower path Places Sized request state := by
  have follows := aligned_follows size lower path request ⟨state, []⟩
  refine ⟨follows.1, follows.2, ?_, ?_⟩
  · exact aligned_callsKeep moves request good within ⟨state, []⟩ known
      (by simp)
  · rintro handle offset data rfl
    rcases aligned_write_spends size lower path handle offset data ⟨state, []⟩
      with ⟨added, made, spent⟩
    rw [made]
    refine spent.imp ?_
    rintro ⟨answer, succeeds⟩
    rw [← follows.1] at succeeds
    rw [succeeds, moves.written_all (good handle rfl) known
      (Prod.ext succeeds rfl)]

end Layer

/-! ## Every request is disciplined -/

/-- Encrypted blocks, of which one device keeps the data and another one the
parity. -/
def codedConfig :
    Config :=
  { Pipeline.deterministicConfig none with
    devices :=
      { mode := .erasure
        paths := ["first", "second"]
        erasure := { data := 1, parity := 1 } } }

end Strata
