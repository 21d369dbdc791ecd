import Strata.Proofs.AlignedCipher
import Strata.Proofs.Holes

/-!
# Writes that leave a hole

The aligning stage over the cipher stage is meant to leave everything outside
of a write as it was.  The main result says exactly when a run does: every
write that succeeds leaves all other bytes readable as they were if and only
if no write leaves a hole with a block that does not open as the old bytes and
zeros.  Requests on blocks whose frames would be at a place that is no word are
left out, and so are reads that start in such a block.
-/

namespace Strata

/-! ## What a write may not touch -/

namespace Layer

variable {σ : Type}

/-- Some read from a place where reads may start shows a byte at a position of
the file. -/
def Shows
    (layer : Layer σ)
    (path : Path)
    (Readable : Nat → Prop)
    (state : σ)
    (position : Nat)
    (byte : UInt8) :
    Prop :=
  ∃ handle start length found, Readable start ∧
    ((layer.read path handle start length).execute state).1 = .ok found ∧
      start ≤ position ∧ found[position - start]? = some byte

/--
What a write of `count` bytes at `offset` leaves alone.  Afterwards every read
from a place where reads may start succeeds, and where it covers a position
outside the write it gives the byte that was there, or zero in a gap behind
the old end.
-/
structure KeepsRest
    (layer : Layer σ)
    (path : Path)
    (Readable : Nat → Prop)
    (offset count : Nat)
    (before after : σ) :
    Prop where
  reads : ∀ handle start length, Readable start → ∃ found,
    ((layer.read path handle start length).execute after).1 = .ok found
  sized : ∀ handle, ∃ size,
    ((layer.fileSize path handle).execute after).1 = .ok size
  shown : ∀ handle start length found position byte, Readable start →
    ((layer.read path handle start length).execute after).1 = .ok found →
    start ≤ position → position < start + length →
    position < offset ∨ offset + count ≤ position →
    layer.Shows path Readable before position byte →
      found[position - start]? = some byte
  gap : ∀ handle start length found position sizeHandle size,
    Readable start →
    ((layer.read path handle start length).execute after).1 = .ok found →
    start ≤ position → position < start + length →
    ((layer.fileSize path sizeHandle).execute before).1 = .ok size →
    size ≤ position → position < offset → 0 < count →
      found[position - start]? = some 0

/-- If the step is a write that succeeded, it left everything else alone. -/
def Step.Intact
    (layer : Layer σ)
    (path : Path)
    (Readable : Nat → Prop)
    (step : Step σ) :
    Prop :=
  ∀ handle offset data count,
    step.request = .write handle offset data →
    step.answer = .ok (.written count) →
      layer.KeepsRest path Readable offset count step.before step.after

end Layer

/-- A read may start in a block whose frame is at a place that is a word. -/
def Framer.Readable
    (framer : Framer)
    (start : Nat) :
    Prop :=
  framer.Addresses (framer.size.start start)

/-! ## Runs -/

namespace alignedCipher

variable
  (framer : Framer)
  (recorder : Nat)
  {path : Path}
  {bytes : Bytes}
  {before after : Session Memory}

theorem read_answers
    (stores : before.Stores framer path bytes)
    (handle : FileHandle)
    {start : Nat}
    (length : Nat)
    (readable : framer.Readable start) :
    ((alignedCipher framer recorder).read path handle start length).Answers
      before (bytes.slice start length) (Session.Stores framer path bytes) :=
  (Layer.readFrom_answers (blockFile framer recorder) handle start length []
    ((stores_iff_holdsFramed framer).mp stores) (.inr readable)).weaken
      fun _ held => (stores_iff_holdsFramed framer).mpr held

theorem fileSize_answers
    (stores : before.Stores framer path bytes)
    (handle : Option FileHandle) :
    ((alignedCipher framer recorder).fileSize path handle).Answers
      before bytes.length (Session.Stores framer path bytes) :=
  ((blockFile framer recorder).fileSize handle bytes before
    ((stores_iff_holdsFramed framer).mp stores)).weaken
      fun _ held => (stores_iff_holdsFramed framer).mpr held

/-- Reads show the bytes of the string and no others. -/
theorem shows_iff
    (stores : before.Stores framer path bytes)
    (position : Nat)
    (byte : UInt8) :
    (alignedCipher framer recorder).Shows path framer.Readable before position
        byte ↔
      bytes[position]? = some byte := by
  constructor
  · rintro ⟨handle, start, length, found, readable, ran, starts, there⟩
    have answers := read_answers framer recorder stores handle length readable
    obtain rfl := Except.ok.inj (answers.answer_eq.symm.trans ran)
    rw [Bytes.getElem?_slice] at there
    split at there
    · rwa [Nat.add_sub_cancel' starts] at there
    · simp at there
  · intro there
    have inside := (List.getElem?_eq_some_iff.mp there).1
    have start := framer.size.start_add_inside position
    have readable : framer.Readable position :=
      stores.1.mono (by omega)
    have answers := read_answers framer recorder stores ⟨[]⟩ 1 readable
    refine ⟨⟨[]⟩, position, 1, _, readable, answers.answer_eq, Nat.le_refl _,
      ?_⟩
    simpa [Bytes.getElem?_slice] using there

/-- A write that acts like on the byte string leaves everything else alone. -/
theorem keepsRest_of_stores
    {offset : Nat}
    {data : Bytes}
    (stored : before.Stores framer path bytes)
    (written : after.Stores framer path (bytes.splice offset data)) :
    (alignedCipher framer recorder).KeepsRest path framer.Readable offset
      data.length before after := by
  have reads := fun handle start length (readable : framer.Readable start) =>
    read_answers framer recorder written handle length readable
  constructor
  case reads =>
    intro handle start length readable
    exact ⟨_, (reads handle start length readable).answer_eq⟩
  case sized =>
    intro handle
    exact ⟨_, (fileSize_answers framer recorder written handle).answer_eq⟩
  case shown =>
    intro handle start length found position byte readable ran starts covered
      outside shown
    rw [shows_iff framer recorder stored] at shown
    obtain rfl :=
      Except.ok.inj
        ((reads handle start length readable).answer_eq.symm.trans ran)
    rw [Bytes.getElem?_slice, if_pos (by omega),
      Nat.add_sub_cancel' starts, Bytes.getElem?_splice]
    grind
  case gap =>
    intro handle start length found position sizeHandle size readable ran
      starts covered sized past before some
    have answers := fileSize_answers framer recorder stored sizeHandle
    obtain rfl := Except.ok.inj (answers.answer_eq.symm.trans sized)
    obtain rfl :=
      Except.ok.inj
        ((reads handle start length readable).answer_eq.symm.trans ran)
    rw [Bytes.getElem?_slice, if_pos (by omega),
      Nat.add_sub_cancel' starts, Bytes.getElem?_splice]
    grind

/-- Reading a full block opens its slot, whatever is in it. -/
theorem read_full_block
    {stored : Bytes}
    (held : before.storage.Holds path stored)
    (handle : FileHandle)
    {index : Nat}
    (addresses : framer.Addresses (index * framer.size.bytes)) :
    (((alignedCipher framer recorder).read path handle
      (index * framer.size.bytes) framer.size.bytes).execute before).1 =
        (framer.openSlot index stored).map (·.take framer.size.bytes) := by
  have flat := (Memory.layer_flatFile path).onSession
  dsimp only [alignedCipher, Layer.aligned]
  rw [Layer.readFrom_full_block, Layer.framed_read_full framer recorder flat
    handle index addresses held]
  cases framer.openSlot index stored <;>
    simp [Except.map, List.take_take]

/-- After a write whose hole does not open, a read of the block in it fails or
gives other bytes. -/
theorem not_keepsRest_of_closed
    {stored tail : Bytes}
    {index count length : Nat}
    (addresses : framer.Addresses (count * framer.size.bytes))
    (stores : before.Stores framer path bytes)
    (framed : framer.Framed bytes stored)
    (written : after.storage.Holds path
      (stored.resize (count * framer.stride) ++ tail))
    (inside : index < count)
    (some : 0 < length)
    (closed :
      framer.openSlot index (stored.resize (count * framer.stride)) ≠
        (framer.openSlot index stored).map (·.resize framer.size.bytes)) :
    ¬(alignedCipher framer recorder).KeepsRest path framer.Readable
      (count * framer.size.bytes) length before after := by
  intro keeps
  have blocks := Nat.mul_le_mul_right framer.size.bytes inside
  have slots := Nat.mul_le_mul_right framer.stride inside
  rw [Nat.succ_mul] at blocks slots
  have placed : framer.Addresses (index * framer.size.bytes) :=
    addresses.mono (by omega)
  have readable : framer.Readable (index * framer.size.bytes) := by
    rwa [Framer.Readable, framer.size.start_eq,
      Nat.mul_div_cancel _ framer.size.positive]
  have slot :
      framer.slot index (stored.resize (count * framer.stride) ++ tail) =
        framer.slot index (stored.resize (count * framer.stride)) :=
    Bytes.slice_append_left _ _ (by rwa [Bytes.length_resize])
  have same :
      framer.openSlot index (stored.resize (count * framer.stride) ++ tail) =
        framer.openSlot index (stored.resize (count * framer.stride)) := by
    rw [Framer.openSlot, slot]
    rfl
  rcases
      keeps.reads ⟨[]⟩ (index * framer.size.bytes)
        framer.size.bytes readable with
    ⟨found, ran⟩
  have opened := read_full_block framer recorder written ⟨[]⟩ placed
  rw [ran, same] at opened
  apply closed
  rw [Framer.openSlot_of_framed framed]
  cases extended : framer.openSlot index
      (stored.resize (count * framer.stride)) with
  | error error => simp [extended, Except.map] at opened
  | ok payload =>
      have payloadLength : payload.length = framer.size.bytes := by
        rw [Framer.openSlot_resize inside] at extended
        have length := framer.length_of_decode extended
        rw [Bytes.length_resize] at length
        unfold Framer.stride Framer.storedLength at length
        omega
      rw [extended, Except.map, ← payloadLength, List.take_length] at opened
      obtain rfl := Except.ok.inj opened
      refine congrArg Except.ok (List.ext_getElem? fun position => ?_)
      rcases Nat.lt_or_ge position framer.size.bytes with within | outside
      · rw [Bytes.getElem?_resize, if_pos within, Framer.block,
          Bytes.getElem?_slice, if_pos within]
        have back : index * framer.size.bytes + position -
            index * framer.size.bytes = position := by omega
        rcases Nat.lt_or_ge (index * framer.size.bytes + position)
          bytes.length with there | past
        · have shown := keeps.shown ⟨[]⟩ _ _ _
            (index * framer.size.bytes + position) _ readable ran (by omega)
            (by omega) (.inl (by omega))
            ((shows_iff framer recorder stores _ _).mpr
              (List.getElem?_eq_getElem there))
          rw [back] at shown
          rw [shown, List.getElem?_eq_getElem there, Option.getD_some]
        · have sized := fileSize_answers framer recorder stores none
          have zero := keeps.gap ⟨[]⟩ _ _ _
            (index * framer.size.bytes + position) none _ readable ran
            (by omega) (by omega) sized.answer_eq past (by omega) some
          rw [back] at zero
          rw [zero, List.getElem?_eq_none past, Option.getD_none]
      · rw [List.getElem?_eq_none (by omega),
          List.getElem?_eq_none (by rwa [Bytes.length_resize])]

/-- A request that leaves a closed hole does not reach what is stored. -/
theorem not_reaches_of_closed
    {stored : Bytes}
    {request : FileRequest}
    (framed : framer.Framed bytes stored)
    (closed : framer.LeavesClosedHole stored request) :
    ¬request.Reaches framer.size bytes := by
  cases request with
  | write handle offset data =>
      rcases closed with ⟨inside, long, index, gap, below, -⟩
      have positive := framer.size.positive
      have position := framer.size.start_add_inside offset
      rw [framed.length, framer.rowLength_div] at gap
      have past : bytes.length < offset := by
        by_contra reached
        have := Nat.div_le_div_right (c := framer.size.bytes)
          (Nat.le_of_not_lt reached)
        omega
      rintro (rfl | reached | reached)
      · simp at long
        omega
      · omega
      · omega
  | _ => exact closed.elim

theorem step_of_answers
    {request : FileRequest}
    {answer : FileAnswer}
    {final : Session Memory → Prop}
    (answers : ((alignedCipher framer recorder).perform path request).Answers
      before answer final) :
    ∃ after, final after ∧
      (alignedCipher framer recorder).step path request before =
        ⟨before, request, .ok answer, after⟩ := by
  rcases answers with ⟨after, ran, held⟩
  exact ⟨after, held, by rw [Layer.step, ran]⟩

/-- A request that stays within the addresses and reaches what is stored leaves
the rest alone. -/
theorem step_of_reaches
    {request : FileRequest}
    (stores : before.Stores framer path bytes)
    (within : request.Within framer.size framer.Addresses)
    (reaches : request.Reaches framer.size bytes) :
    ((alignedCipher framer recorder).step path request before).Intact
        (alignedCipher framer recorder) path framer.Readable ∧
      ∃ bytes, ((alignedCipher framer recorder).step path request
        before).after.Stores framer path bytes := by
  rcases
      step_of_answers framer recorder
        (perform_answers framer recorder request stores within reaches) with
    ⟨after, held, same⟩
  rw [same]
  refine ⟨?_, _, held⟩
  rintro handle offset data count rfl answered
  obtain rfl : data.length = count := by
    simpa [FileRequest.onBytes] using answered
  exact keepsRest_of_stores framer recorder stores held

/-- A write that does not start with a full block is refused past the end. -/
theorem step_of_refused
    {handle : FileHandle}
    {offset : Nat}
    {data : Bytes}
    (stores : before.Stores framer path bytes)
    (apart : ¬(FileRequest.write handle offset data).Reaches framer.size bytes)
    (partly :
      framer.size.inside offset = 0 → data.length < framer.size.bytes) :
    let step := (alignedCipher framer recorder).step path
      (.write handle offset data) before
    step.Intact (alignedCipher framer recorder) path framer.Readable ∧
      step.after.Stores framer path bytes := by
  simp only [FileRequest.Reaches, not_or, Nat.not_le, Nat.not_lt] at apart
  rcases
      Layer.writeFrom_refused
        (blockFile framer recorder) handle 0
        ((stores_iff_holdsFramed framer).mp stores) apart.1 apart.2.1 apart.2.2
        partly with
    ⟨error, after, ran, held⟩
  have refused : ((alignedCipher framer recorder).perform path
      (.write handle offset data)).execute before = (.error error, after) := by
    dsimp only [Layer.perform, alignedCipher, Layer.aligned]
    rw [Action.execute_bind, ran]
  dsimp only [Layer.step]
  rw [refused]
  refine ⟨?_, (stores_iff_holdsFramed framer).mpr held⟩
  rintro _ _ _ count - answered
  simp at answered

/-- A write of some bytes that acts like on the byte string is a step that
leaves the rest alone. -/
theorem step_of_write
    {handle : FileHandle}
    {offset : Nat}
    {data : Bytes}
    {final : Session Memory → Prop}
    (answers :
      (Layer.Align.writeFrom framer.size
        (Memory.layer.onSession.framed framer Session.drawNonce
          (Session.meter recorder))
        path handle offset data 0).Answers before data.length final) :
    ∃ after, final after ∧
      (alignedCipher framer recorder).step path (.write handle offset data)
          before =
        ⟨before, .write handle offset data, .ok (.written data.length),
          after⟩ :=
  step_of_answers framer recorder (answers.bind fun _ held => .pure held)

/-- A write that starts with a full block past the end leaves the rest alone
if and only if its hole opens. -/
theorem step_of_hole
    (handle : FileHandle)
    {stored data : Bytes}
    {count : Nat}
    (stores : before.Stores framer path bytes)
    (framed : framer.Framed bytes stored)
    (held : before.storage.Holds path stored)
    (addresses :
      framer.Addresses (count * framer.size.bytes + data.length))
    (past : bytes.length ≤ count * framer.size.bytes)
    (long : framer.size.bytes ≤ data.length) :
    let step := (alignedCipher framer recorder).step path
      (.write handle (count * framer.size.bytes) data) before
    let closed := framer.LeavesClosedHole stored
      (.write handle (count * framer.size.bytes) data)
    (closed →
        ¬step.Intact (alignedCipher framer recorder) path framer.Readable) ∧
      (¬closed →
        step.Intact (alignedCipher framer recorder) path framer.Readable ∧
        ∃ bytes, step.after.Stores framer path bytes) := by
  have flat := (Memory.layer_flatFile path).onSession
  have positive := framer.size.positive
  have inside : framer.size.inside (count * framer.size.bytes) = 0 :=
    Nat.mul_mod_left _ _
  dsimp only [Framer.LeavesClosedHole, Framer.OpensExtended]
  rw [inside, Nat.mul_div_cancel _ positive, framed.length,
    framer.rowLength_div]
  constructor
  · rintro ⟨-, -, index, gap, below, closed⟩ intact
    have pastRow : stored.length ≤ count * framer.stride := by
      rw [framed.length, ← framer.rowLength_mul]
      exact framer.rowLength_mono past
    rcases
        step_of_write framer recorder (Layer.writeFrom_past_end framer recorder
          flat handle addresses held pastRow long) with
      ⟨after, ⟨tail, written⟩, same⟩
    rw [same] at intact
    exact not_keepsRest_of_closed framer recorder
      (addresses.mono (Nat.le_add_right _ _)) stores framed written below
      (by omega) closed (intact _ _ _ _ rfl rfl)
  · intro opens
    rcases
        step_of_write framer recorder (Layer.writeFrom_past_end_framed framer
          recorder flat rfl handle addresses framed held past long (by
            intro index gap below
            by_contra closed
            exact opens ⟨rfl, long, index, gap, below, closed⟩)) with
      ⟨after, written, same⟩
    have final := (stores_iff_holdsFramed framer).mpr written
    rw [same]
    refine ⟨?_, _, final⟩
    rintro _ _ _ count request answered
    simp at request answered
    rcases request with ⟨rfl, rfl, rfl⟩
    subst answered
    exact keepsRest_of_stores framer recorder stores final

/-- From a row of frames a step is intact just if it leaves no closed hole,
and then it leaves a row of frames. -/
theorem step_intact_iff
    {request : FileRequest}
    (stores : before.Stores framer path bytes)
    (within : request.Within framer.size framer.Addresses) :
    (((alignedCipher framer recorder).step path request before).Intact
        (alignedCipher framer recorder) path framer.Readable ↔
      ∀ stored, before.storage.Contains path stored →
        ¬framer.LeavesClosedHole stored request) ∧
    ((∀ stored, before.storage.Contains path stored →
        ¬framer.LeavesClosedHole stored request) →
      ∃ bytes, ((alignedCipher framer recorder).step path request
        before).after.Stores framer path bytes) := by
  rcases stores.2 with ⟨stored, row, held⟩
  have framed := Framer.stores_iff_framed.mp row
  have only : (∀ other, before.storage.Contains path other →
      ¬framer.LeavesClosedHole other request) ↔
        ¬framer.LeavesClosedHole stored request := by
    constructor
    · intro opens
      exact opens stored held.contains
    · intro opens other contained
      rwa [contained.unique held.contains]
  rw [only]
  by_cases reaches : request.Reaches framer.size bytes
  · rcases step_of_reaches framer recorder stores within reaches with
      ⟨intact, next⟩
    have opens : ¬framer.LeavesClosedHole stored request :=
      fun closed => not_reaches_of_closed framer framed closed reaches
    exact ⟨⟨fun _ => opens, fun _ => intact⟩, fun _ => next⟩
  · cases request with
    | write handle offset data =>
        by_cases whole :
            framer.size.inside offset = 0 ∧ framer.size.bytes ≤ data.length
        · rcases whole with ⟨inside, long⟩
          have start := framer.size.start_eq offset
          have position := framer.size.start_add_inside offset
          have even :
              offset / framer.size.bytes * framer.size.bytes = offset := by
            omega
          have past :
              bytes.length ≤
                offset / framer.size.bytes * framer.size.bytes := by
            simp only [FileRequest.Reaches, not_or] at reaches
            omega
          have some : data ≠ [] := by
            rintro rfl
            simp only [FileRequest.Reaches, true_or, not_true] at reaches
          have addresses := within.resolve_left some
          rw [← even] at addresses
          have hole := step_of_hole framer recorder handle stores framed held
            addresses past long
          rw [even] at hole
          rcases hole with ⟨closed, opens⟩
          refine ⟨⟨fun intact hole => closed hole intact,
            fun opened => (opens opened).1⟩, fun opened => (opens opened).2⟩
        · rcases
              step_of_refused framer recorder stores
                reaches (fun inside => by
                  simpa [inside, Nat.not_le] using whole) with
            ⟨intact, next⟩
          have opens : ¬framer.LeavesClosedHole stored
              (.write handle offset data) :=
            fun closed => whole ⟨closed.1, closed.2.1⟩
          exact ⟨⟨fun _ => opens, fun _ => intact⟩, fun _ => ⟨_, next⟩⟩
    | _ => exact absurd trivial reaches

/--
In a run of requests that stay within the addresses, every write that succeeds
leaves the rest of the file as it was and readable, if and only if no write of
the run leaves a hole with a block that does not open as its old bytes and
zeros.
-/
theorem run_intact_iff
    (requests : List FileRequest)
    (stores : before.Stores framer path bytes)
    (within :
      ∀ request ∈ requests, request.Within framer.size framer.Addresses) :
    (∀ step ∈ (alignedCipher framer recorder).run path requests before,
      step.Intact (alignedCipher framer recorder) path framer.Readable) ↔
    ∀ step ∈ (alignedCipher framer recorder).run path requests before,
      ∀ stored, step.before.storage.Contains path stored →
        ¬framer.LeavesClosedHole stored step.request := by
  induction requests generalizing bytes before with
  | nil => simp [Layer.run]
  | cons request rest ih =>
      rcases List.forall_mem_cons.mp within with ⟨first, others⟩
      rcases step_intact_iff framer recorder stores first with ⟨intact, next⟩
      simp only [Layer.run, List.forall_mem_cons]
      rw [intact]
      refine and_congr_right fun opens => ?_
      rcases next opens with ⟨bytes, stored⟩
      exact ih stored others

/-- Every write into a file of two blocks is covered by the condition. -/
theorem run_intact_iff_of_empty_file :
    (∀ step ∈ (alignedCipher ⟨⟨4, by decide⟩, .randomIv (.uniform 7)⟩ 0).run
        .root [.write ⟨[]⟩ 0 [1, 2, 3, 4, 5], .write ⟨[]⟩ 8 [6, 7, 8, 9]]
        { storage := { files := [(.root, .empty)] } },
      step.Intact
        (alignedCipher ⟨⟨4, by decide⟩, .randomIv (.uniform 7)⟩ 0) .root
        (Framer.Readable ⟨⟨4, by decide⟩, .randomIv (.uniform 7)⟩)) ↔
    ∀ step ∈ (alignedCipher ⟨⟨4, by decide⟩, .randomIv (.uniform 7)⟩ 0).run
        .root [.write ⟨[]⟩ 0 [1, 2, 3, 4, 5], .write ⟨[]⟩ 8 [6, 7, 8, 9]]
        { storage := { files := [(.root, .empty)] } },
      ∀ stored, step.before.storage.Contains .root stored →
        ¬Framer.LeavesClosedHole ⟨⟨4, by decide⟩, .randomIv (.uniform 7)⟩
          stored step.request :=
  run_intact_iff _ _ _ (empty_stores _ _) (by decide)

/-- Without encryption every write that succeeds in a run of requests that stay
within the addresses leaves the rest of the file as it was and readable. -/
theorem run_intact_of_plain
    (plain : framer.scheme = .null ∨ framer.scheme = .nullPadded)
    (requests : List FileRequest)
    (stores : before.Stores framer path bytes)
    (within :
      ∀ request ∈ requests, request.Within framer.size framer.Addresses) :
    ∀ step ∈ (alignedCipher framer recorder).run path requests before,
      step.Intact (alignedCipher framer recorder) path framer.Readable := by
  induction requests generalizing bytes before with
  | nil => simp [Layer.run]
  | cons request rest ih =>
      have opens : ∀ stored, before.storage.Contains path stored →
          ¬framer.LeavesClosedHole stored request := by
        intro stored contained closed
        rcases stores.2 with ⟨row, framed, held⟩
        obtain rfl := contained.unique held.contains
        cases request with
        | write handle offset data =>
            rcases closed with ⟨-, -, index, -, below, closed⟩
            exact closed (Framer.opensExtended_of_plain plain
              (Framer.stores_iff_framed.mp framed) below)
        | _ => exact closed.elim
      rcases List.forall_mem_cons.mp within with ⟨first, others⟩
      rcases step_intact_iff framer recorder stores first with ⟨intact, next⟩
      rcases next opens with ⟨bytes, stored⟩
      simp only [Layer.run, List.forall_mem_cons]
      exact ⟨intact.mpr opens, ih stored others⟩

/-- With a tag that is not zero no frame opens once zeros stand behind it. -/
theorem not_opensExtended_uniform
    {framer : Framer}
    {byte : UInt8}
    {nonce bytes stored : Bytes}
    {index offset : Nat}
    (scheme : framer.scheme = .deterministic (.uniform byte) nonce)
    (tagged : byte ≠ 0)
    (framed : framer.Framed bytes stored)
    (inside : index < offset / framer.size.bytes)
    (short : bytes.length < (index + 1) * framer.size.bytes) :
    ¬framer.OpensExtended index stored offset := by
  intro opens
  unfold Framer.OpensExtended at opens
  rw [Framer.openSlot_resize inside, Framer.openSlot_of_framed framed]
    at opens
  rcases Framer.isFrame_of_decode _ opens with isFrame | ⟨padded, -, -⟩
  · rcases isFrame with ⟨_, -, same⟩
    have positive := framer.size.positive
    rw [Nat.succ_mul] at short
    have blockShort :
        (framer.block index bytes).length < framer.size.bytes := by
      rw [Framer.block, Bytes.length_slice]
      omega
    have slotShort :
        (framer.slot index stored).length ≤ framer.size.bytes + 15 := by
      rcases framed.slot index with ⟨none, -⟩ | isFrame
      · simp [none]
      · rw [isFrame.length]
        simp only [Framer.storedLength, Framer.overhead, scheme,
          Aead.tagLength]
        omega
    -- The last byte of the slot is the last byte of the tag, and yet zero.
    have last := congrArg (·[framer.size.bytes + 15]?) same
    simp only [Bytes.getElem?_resize, Framer.stride, Framer.overhead,
      Framer.encode, scheme, Aead.encrypt, Aead.tagLength] at last
    rw [if_pos (by omega), List.getElem?_eq_none slotShort,
      List.getElem?_append_right (by simp)] at last
    simp [Aead.uniform] at last
    exact tagged last.symm
  · simp [scheme] at padded

/-- A block written past a file of five bytes destroys them: the frame that
held them is extended with zeros, and its tag no longer fits. -/
theorem run_not_intact_past_end :
    ¬∀ step ∈ (alignedCipher
        ⟨⟨16, by decide⟩, .deterministic (.uniform 7) (.zeros 12)⟩ 0).run
        .root [.write ⟨[]⟩ 0 [1, 2, 3, 4, 5], .write ⟨[]⟩ 32 (.zeros 16)]
        { storage := { files := [(.root, .empty)] } },
      step.Intact (alignedCipher
        ⟨⟨16, by decide⟩, .deterministic (.uniform 7) (.zeros 12)⟩ 0) .root
        (Framer.Readable
          ⟨⟨16, by decide⟩, .deterministic (.uniform 7) (.zeros 12)⟩) := by
  intro intact
  rcases
      step_of_answers
        ⟨⟨16, by decide⟩, .deterministic (.uniform 7) (.zeros 12)⟩ 0
        (perform_answers _ _ (.write ⟨[]⟩ 0 [1, 2, 3, 4, 5])
          (empty_stores _ .root) (by decide)
          (by simp [FileRequest.Reaches])) with
    ⟨after, stores, same⟩
  simp only [Layer.run, List.forall_mem_cons, same] at intact
  have opens := (step_intact_iff _ _ stores (by decide)).1.mp intact.2.1
  rcases stores.2 with ⟨stored, row, held⟩
  have framed := Framer.stores_iff_framed.mp row
  refine opens stored held.contains ⟨rfl, Nat.le_refl 16, 0, ?_, by decide, ?_⟩
  · rw [framed.length, Framer.rowLength_div]
    decide
  · exact not_opensExtended_uniform rfl (by decide) framed (by decide) (by decide)

end alignedCipher

end Strata
