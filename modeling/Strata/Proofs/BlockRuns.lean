import Strata.Layer.Devices
import Strata.Proofs.BlockRows
import Strata.Proofs.FlatFile

/-!
# Runs of blocks on the device stage

The stages above the devices move whole blocks: they append a block, write a
block again, cut the file between two blocks, or cut it inside a block and
write the rest of that block again.  Under such calls the device stage is a
row of blocks, with every coder and whatever pads are drawn.
-/

namespace Strata

open FileExtents (Lays)

variable {κ : Type}

/-! ## Calls that move blocks -/

/--
What is asked of a file that is a row of blocks, what is answered, and the row
that is left.  Every call comes from the start of a block.  A cut inside a
block and the write of what remains of that block belong together.
-/
inductive BlockCall
    (handle : FileHandle) :
    List Bytes → List FileRequest → List FileAnswer → List Bytes → Prop where
  | append
      (blocks : List Bytes)
      (block : Bytes)
      (nonempty : block ≠ []) :
      BlockCall handle blocks
        [.write handle blocks.flatten.length block]
        [.written block.length]
        (blocks ++ [block])
  | rewrite
      (front behind : List Bytes)
      (old new : Bytes)
      (same : new.length = old.length) :
      BlockCall handle (front ++ old :: behind)
        [.write handle front.flatten.length new]
        [.written new.length]
        (front ++ new :: behind)
  | lengthen
      (front : List Bytes)
      (old new : Bytes)
      (longer : old.length < new.length) :
      BlockCall handle (front ++ [old])
        [.write handle front.flatten.length new]
        [.written new.length]
        (front ++ [new])
  | cut
      (front behind : List Bytes)
      (on : Option FileHandle)
      (own : on = none ∨ on = some handle) :
      BlockCall handle (front ++ behind)
        [.truncate on front.flatten.length]
        [.truncated]
        front
  | shorten
      (front behind : List Bytes)
      (block : Bytes)
      (kept : Nat)
      (on : Option FileHandle)
      (own : on = none ∨ on = some handle)
      (left : 0 < kept)
      (inside : kept < block.length) :
      BlockCall handle (front ++ block :: behind)
        [.truncate on (front.flatten.length + kept),
          .write handle front.flatten.length (block.take kept)]
        [.truncated, .written kept]
        (front ++ [block.take kept])
  | read
      (front behind : List Bytes)
      (block : Bytes)
      (length : Nat)
      (asked :
        length = block.length ∨ behind = [] ∧ block.length ≤ length) :
      BlockCall handle (front ++ block :: behind)
        [.read handle front.flatten.length length]
        [.data block]
        (front ++ block :: behind)
  | readEnd
      (blocks : List Bytes)
      (length : Nat) :
      BlockCall handle blocks
        [.read handle blocks.flatten.length length]
        [.data []]
        blocks
  | fileSize
      (blocks : List Bytes)
      (on : Option FileHandle)
      (own : on = none ∨ on = some handle) :
      BlockCall handle blocks
        [.fileSize on]
        [.size blocks.flatten.length]
        blocks

/-- The requests of any number of calls, one after the other, and their
answers. -/
inductive BlockRun
    (handle : FileHandle) :
    List Bytes → List FileRequest → List FileAnswer → Prop where
  | done
      (blocks : List Bytes) :
      BlockRun handle blocks [] []
  | call
      {blocks changed : List Bytes}
      {requests rest : List FileRequest}
      {answers others : List FileAnswer}
      (first : BlockCall handle blocks requests answers changed)
      (later : BlockRun handle changed rest others) :
      BlockRun handle blocks (requests ++ rest) (answers ++ others)

/-- No call leaves an empty block. -/
theorem BlockCall.filled
    {handle : FileHandle}
    {blocks changed : List Bytes}
    {requests : List FileRequest}
    {answers : List FileAnswer}
    (call : BlockCall handle blocks requests answers changed)
    (filled : [] ∉ blocks) :
    [] ∉ changed := by
  cases call with
  | append _ block nonempty =>
      rw [List.mem_append, List.mem_singleton]
      exact not_or.mpr ⟨filled, nonempty.symm⟩
  | rewrite front behind old new same =>
      rw [List.mem_append, List.mem_cons, not_or, not_or] at filled ⊢
      refine ⟨filled.1, fun empty => filled.2.1 ?_, filled.2.2⟩
      rw [← empty, List.length_nil] at same
      exact (List.length_eq_zero_iff.mp same.symm).symm
  | lengthen front old new longer =>
      rw [List.mem_append, List.mem_singleton, not_or] at filled ⊢
      refine ⟨filled.1, fun empty => ?_⟩
      rw [← empty, List.length_nil] at longer
      omega
  | cut _ behind on own =>
      exact fun member => filled (List.mem_append_left _ member)
  | shorten front behind block kept on own left inside =>
      rw [List.mem_append, List.mem_singleton, not_or]
      refine ⟨fun member => filled (List.mem_append_left _ member), ?_⟩
      intro empty
      have long := congrArg List.length empty
      rw [List.length_nil, List.length_take] at long
      omega
  | read front behind block length asked => exact filled
  | readEnd _ length => exact filled
  | fileSize _ on own => exact filled

/-! ## Sessions over a fleet -/

namespace Session

variable {η : Type}

/-- Pads of the right number and length are drawn, whatever is on the tape. -/
theorem drawPads_answers
    (number length : Nat)
    (session : Session η) :
    ∃ pads : List Bytes,
      pads.length = number ∧
        (∀ pad ∈ pads, pad.length = length) ∧
        ((List.replicate number ()).mapM
          fun _ => (draw length : Action (Session η) Bytes)).Answers session
            pads (fun reached => reached.storage = session.storage) := by
  induction number generalizing session with
  | zero =>
      refine ⟨[], rfl, fun pad member => absurd member List.not_mem_nil, ?_⟩
      rw [List.replicate_zero, List.mapM_nil]
      exact .pure rfl
  | succ number ih =>
      have first : (draw length).Answers session (session.tape.take length).1
          (fun reached => reached.storage = session.storage) :=
        ⟨_, rfl, rfl⟩
      rcases first with ⟨drawn, ran, kept⟩
      rcases ih drawn with ⟨pads, count, same, answers⟩
      refine ⟨(session.tape.take length).1 :: pads, by simp [count], ?_, ?_⟩
      · intro pad member
        cases List.mem_cons.mp member with
        | inl head => rw [head, Tape.length_take]
        | inr later => exact same pad later
      · rcases answers with ⟨reached, continued, storage⟩
        refine ⟨reached, ?_, storage.trans kept⟩
        rw [List.replicate_succ, List.mapM_cons, Action.execute_bind, ran]
        simp only [Action.execute_bind, continued, Action.execute_pure]

end Session

namespace Devices

variable
  {devices : Devices κ}
  {path : Path}
  {handle : FileHandle}
  {offset : Nat}
  {block : Bytes}
  {session : Session (Fleet κ)}
  {after : Fleet κ → Prop}

/-- A block is written if it can be written with any pads of its length. -/
theorem writeDrawn_answers
    (nonempty : block ≠ [])
    (writes : ∀ pads : List Bytes,
      pads.length = session.storage.coder.padCount devices.count →
      (∀ pad ∈ pads, pad.length = block.length) →
        (devices.write path handle offset block pads).Answers session.storage
          block.length after) :
    (devices.writeDrawn path handle offset block).Answers session block.length
      (fun reached => after reached.storage) := by
  rcases
      Session.drawPads_answers
        (session.storage.coder.padCount devices.count) block.length session with
    ⟨pads, count, same, drawn⟩
  rw [writeDrawn, if_neg (by simpa using nonempty)]
  have asked : (Session.onStorage (Fleet.askCoder .ok)).Answers session
      session.storage.coder (· = session) :=
    ⟨session, rfl, rfl⟩
  refine asked.bind fun reached kept => ?_
  subst kept
  refine drawn.bind fun reached kept => ?_
  refine Session.onStorage_answers ?_
  rw [kept]
  exact writes pads count same

/-- A file that was just made is empty on every device, and nothing is
recorded for it. -/
theorem create_empty_answers
    {fleet : Fleet κ}
    {Holds : List Descriptor → List Bytes → κ → Prop}
    (serves :
      devices.backend.Serves (devices.filePlaces fleet.coder path) Holds)
    (fits : fleet.coder.Fits devices.count)
    (mode : Nat)
    (held : Holds [] [] fleet.host) :
    ∃ opened,
      (devices.create path mode).Answers fleet ⟨opened⟩ (fun reached =>
        Coder.Follows devices.count fleet.coder reached.coder ∧
          reached.coder.Records path (Lays fleet.coder.width []) ∧
          Holds opened (List.replicate devices.count []) reached.host) := by
  rcases openAll_create_answers serves mode held with ⟨opened, answers⟩
  refine ⟨opened, ?_⟩
  have places : (devices.files path).Answers fleet
      (devices.filePlaces fleet.coder path) (· = fleet) :=
    Fleet.askCoder_answers rfl
  refine places.bind fun reached kept => ?_
  subst kept
  refine answers.bind fun made held => ?_
  rcases held with ⟨coder, holds⟩
  rcases Coder.onCreate_follows fits path with ⟨follows, records⟩
  have told : (Fleet.tellCoder (·.onCreate path)).Answers made ()
      (· = { made with coder := made.coder.onCreate path }) :=
    ⟨_, rfl, rfl⟩
  refine told.bind fun final changed => ?_
  subst changed
  rw [length_filePlaces] at holds
  rw [← coder] at follows records
  refine .pure ⟨?_, ?_, holds⟩
  · rw [← coder]
    exact follows
  · rw [← coder]
    exact records

/-- A file that was just made has no blocks. -/
theorem create_answers
    {fleet : Fleet κ}
    {Holds : List Descriptor → List Bytes → κ → Prop}
    (serves :
      devices.backend.Serves (devices.filePlaces fleet.coder path) Holds)
    (fits : fleet.coder.Fits devices.count)
    (mode : Nat)
    (held : Holds [] [] fleet.host) :
    ∃ opened,
      (devices.create path mode).Answers fleet ⟨opened⟩
        (Fleet.Keeps fleet.coder devices.count (Holds opened) path []) := by
  rcases create_empty_answers serves fits mode held with ⟨opened, answers⟩
  exact ⟨opened, answers.weaken fun reached ⟨follows, records, holds⟩ =>
    ⟨follows, records, _, .nil _ _ _, holds⟩⟩

end Devices

/-! ## Runs -/

namespace Layer

variable {σ : Type}

/-- A run goes on from the state that a request leaves. -/
theorem run_of_answers
    {layer : Layer σ}
    {path : Path}
    {request : FileRequest}
    {state : σ}
    {answer : FileAnswer}
    {after : σ → Prop}
    (answers : (layer.perform path request).Answers state answer after) :
    ∃ reached, after reached ∧ ∀ rest,
      (layer.run path (request :: rest) state).map (·.answer) =
        .ok answer :: (layer.run path rest reached).map (·.answer) := by
  rcases answers with ⟨reached, ran, held⟩
  refine ⟨reached, held, fun rest => ?_⟩
  simp only [run, step, ran, List.map_cons]

end Layer

namespace Devices

variable
  {devices : Devices κ}
  {Holds : List Descriptor → List Bytes → κ → Prop}
  {base : Coder}
  {path : Path}
  {opened : List Descriptor}
  {blocks changed : List Bytes}
  {requests : List FileRequest}
  {answers : List FileAnswer}
  (recorder : Nat)

theorem perform_write_answers
    {handle : FileHandle}
    {offset : Nat}
    {block : Bytes}
    {session : Session (Fleet κ)}
    {after : Fleet κ → Prop}
    (nonempty : block ≠ [])
    (writes : ∀ pads : List Bytes,
      pads.length = session.storage.coder.padCount devices.count →
      (∀ pad ∈ pads, pad.length = block.length) →
        (devices.write path handle offset block pads).Answers session.storage
          block.length after) :
    ((Layer.ofDevices devices (Session.meter recorder)).perform path
        (.write handle offset block)).Answers session (.written block.length)
      (fun reached => after reached.storage) := by
  rcases
      Session.timed_answers recorder "write"
        (devices.writeDrawn path handle offset block) session with
    ⟨started, storage, timed⟩
  rw [← storage] at writes
  have written := timed _ _ (writeDrawn_answers nonempty writes)
  exact written.bind fun reached held => .pure held

theorem perform_read_answers
    {handle : FileHandle}
    {offset length : Nat}
    {data : Bytes}
    {session : Session (Fleet κ)}
    {after : Fleet κ → Prop}
    (reads : (devices.read path handle offset length).Answers session.storage
      data after) :
    ((Layer.ofDevices devices (Session.meter recorder)).perform path
        (.read handle offset length)).Answers session (.data data)
      (fun reached => after reached.storage) := by
  rcases
      Session.timed_answers recorder "read"
        (Session.onStorage (devices.read path handle offset length)) session with
    ⟨started, storage, timed⟩
  rw [← storage] at reads
  have found := timed _ _ (Session.onStorage_answers reads)
  exact found.bind fun reached held => .pure held

theorem perform_truncate_answers
    {on : Option FileHandle}
    {size : Nat}
    {session : Session (Fleet κ)}
    {after : Fleet κ → Prop}
    (cuts : (devices.truncate path on size).Answers session.storage () after) :
    ((Layer.ofDevices devices (Session.meter recorder)).perform path
        (.truncate on size)).Answers session .truncated
      (fun reached => after reached.storage) :=
  (Session.onStorage_answers cuts).bind fun _ held => .pure held

theorem perform_fileSize_answers
    {on : Option FileHandle}
    {found : Attributes}
    {session : Session (Fleet κ)}
    {after : Fleet κ → Prop}
    (knows : (devices.attributes path on).Answers session.storage found
      after) :
    ((Layer.ofDevices devices (Session.meter recorder)).perform path
        (.fileSize on)).Answers session (.size found.size)
      (fun reached => after reached.storage) := by
  have sized :
      ((Layer.ofDevices devices (Session.meter recorder)).fileSize path
        on).Answers session found.size (fun reached => after reached.storage) :=
    (Session.onStorage_answers knows).bind fun _ held => .pure held
  exact sized.bind fun _ held => .pure held

/-- What a call leaves, and that every request of it succeeds. -/
theorem run_call
    (serves : devices.backend.Serves (devices.filePlaces base path) Holds)
    (call : BlockCall ⟨opened⟩ blocks requests answers changed)
    {session : Session (Fleet κ)}
    (filled : [] ∉ blocks)
    (keeps :
      session.storage.Keeps base devices.count (Holds opened) path blocks) :
    ∃ reached : Session (Fleet κ),
      reached.storage.Keeps base devices.count (Holds opened) path changed ∧
        ∀ rest,
          ((Layer.ofDevices devices (Session.meter recorder)).run path
              (requests ++ rest) session).map (·.answer) =
            answers.map .ok ++
              ((Layer.ofDevices devices (Session.meter recorder)).run path
                rest reached).map (·.answer) := by
  cases call with
  | append _ block nonempty =>
      rw [length_flatten]
      have awaits := Fleet.Keeps.awaits keeps (block.length)
      exact Layer.run_of_answers (perform_write_answers recorder nonempty
        fun pads count same =>
          write_awaited_answers serves nonempty count same awaits)
  | rewrite front behind old new same =>
      rw [length_flatten]
      have nonempty : new ≠ [] := by
        rintro rfl
        have none := List.length_eq_zero_iff.mp same.symm
        rw [none] at filled
        exact filled (List.mem_append_right _ List.mem_cons_self)
      exact Layer.run_of_answers (perform_write_answers recorder nonempty
        fun pads count each =>
          rewrite_answers serves nonempty count each same keeps)
  | lengthen front old new longer =>
      rw [length_flatten]
      have nonempty : new ≠ [] := by
        intro empty
        rw [empty, List.length_nil] at longer
        omega
      have awaits := Fleet.Keeps.awaits_last keeps (Nat.le_of_lt longer)
      exact Layer.run_of_answers (perform_write_answers recorder nonempty
        fun pads count same =>
          write_awaited_answers serves nonempty count same awaits)
  | cut _ behind on own =>
      rw [length_flatten]
      exact Layer.run_of_answers (perform_truncate_answers recorder
        (truncate_start_answers serves own keeps))
  | shorten front behind block kept on own left inside =>
      rw [length_flatten]
      have long : (block.take kept).length = kept :=
        List.length_take_of_le (Nat.le_of_lt inside)
      have nonempty : block.take kept ≠ [] := by
        intro empty
        rw [empty, List.length_nil] at long
        omega
      rcases
          Layer.run_of_answers
            (perform_truncate_answers recorder
              (truncate_inside_answers serves own left inside keeps)) with
        ⟨torn, awaits, first⟩
      rw [← long] at awaits
      rcases
          Layer.run_of_answers
            (perform_write_answers recorder nonempty fun pads count same =>
              write_awaited_answers serves nonempty count same awaits) with
        ⟨mended, whole, second⟩
      refine ⟨mended, whole, fun rest => ?_⟩
      rw [List.cons_append, first, List.cons_append, second, List.nil_append,
        long]
      rfl
  | read front behind block length asked =>
      rw [length_flatten]
      have nonempty : block ≠ [] := by
        rintro rfl
        exact filled (List.mem_append_right _ List.mem_cons_self)
      exact Layer.run_of_answers (perform_read_answers recorder
        (read_answers serves nonempty asked keeps))
  | readEnd _ length =>
      rw [length_flatten]
      exact Layer.run_of_answers (perform_read_answers recorder
        (read_end_answers serves length keeps))
  | fileSize _ on own =>
      rw [length_flatten]
      rcases attributes_answers serves own keeps with ⟨found, size, knows⟩
      rw [← size]
      exact Layer.run_of_answers (perform_fileSize_answers recorder knows)

/-- Every run of calls succeeds, and answers what the row of blocks says. -/
theorem run_of_blockRun
    (serves : devices.backend.Serves (devices.filePlaces base path) Holds)
    (run : BlockRun ⟨opened⟩ blocks requests answers)
    {session : Session (Fleet κ)}
    (filled : [] ∉ blocks)
    (keeps :
      session.storage.Keeps base devices.count (Holds opened) path blocks) :
    ((Layer.ofDevices devices (Session.meter recorder)).run path requests
      session).map (·.answer) = answers.map .ok := by
  induction run generalizing session with
  | done blocks => rfl
  | call first later ih =>
      rcases run_call recorder serves first filled keeps with
        ⟨reached, held, continues⟩
      rw [continues, ih (first.filled filled) held, List.map_append]

/--
Over device files on which every operation succeeds a file that was just made
is a row of blocks in every run of calls that move blocks: each request
succeeds, the size is the length of all blocks together, and a block is read
as it was written last, with each coder that fits the devices, in whatever
state its books are, and for all pads on the tape.
-/
theorem blockRun_answers
    (mode : Nat)
    (path : Path)
    {session : Session (Fleet κ)}
    (serves : devices.backend.Serves
      (devices.filePlaces session.storage.coder path) Holds)
    (fits : session.storage.coder.Fits devices.count)
    (fresh : Holds [] [] session.storage.host) :
    ∃ handle created,
      ((Layer.ofDevices devices (Session.meter recorder)).create path
          mode).execute session = (.ok handle, created) ∧
        ∀ requests answers,
          BlockRun handle [] requests answers →
            ((Layer.ofDevices devices (Session.meter recorder)).run path
              requests created).map (·.answer) = answers.map .ok := by
  rcases create_answers serves fits mode fresh with ⟨opened, made⟩
  rcases Session.onStorage_answers made with ⟨created, ran, keeps⟩
  refine ⟨⟨opened⟩, created, ran, fun requests answers run => ?_⟩
  exact run_of_blockRun recorder serves run List.not_mem_nil keeps

/-- Three devices in memory. -/
def onShelf :
    Devices DeviceShelf :=
  ⟨DeviceShelf.backend, ["/first", "/second", "/third"]⟩

/-- Two data shards and a parity shard, with nothing recorded or stored. -/
def emptyShelf :
    Session (Fleet DeviceShelf) :=
  { storage := ⟨.erasure { code := ⟨2, 1, [[3, 2]]⟩ }, []⟩ }

/-- A block is appended and one more, the first is written again, the second
gets longer, is cut inside and goes. -/
theorem blockRun_answers_of_emptyShelf :
    ∃ handle created,
      ((Layer.ofDevices onShelf (Session.meter 0)).create ⟨["file"]⟩
          420).execute emptyShelf = (.ok handle, created) ∧
        ((Layer.ofDevices onShelf (Session.meter 0)).run ⟨["file"]⟩
            [.write handle 0 [1, 2, 3, 4, 5], .write handle 5 [6],
              .write handle 0 [9, 8, 7, 6, 5], .write handle 5 [1, 2, 3],
              .read handle 5 4, .truncate none 7, .write handle 5 [1, 2],
              .fileSize (some handle), .read handle 0 5, .truncate none 5,
              .read handle 5 1]
            created).map (·.answer) =
          [.ok (.written 5), .ok (.written 1), .ok (.written 5),
            .ok (.written 3), .ok (.data [1, 2, 3]), .ok .truncated,
            .ok (.written 2), .ok (.size 7), .ok (.data [9, 8, 7, 6, 5]),
            .ok .truncated, .ok (.data [])] := by
  have weights : ReedSolomon.weights [0, 1] 2 = [3, 2] := by
    decide +kernel
  have shape : ErasureCoder.ofShape 2 1 =
      .ok { code := ⟨2, 1, [[3, 2]]⟩ } := by
    rw [← weights]
    rfl
  have distinct :
      (onShelf.filePlaces emptyShelf.storage.coder ⟨["file"]⟩).Nodup := by
    decide +kernel
  have serves : onShelf.backend.Serves
      (onShelf.filePlaces emptyShelf.storage.coder ⟨["file"]⟩) _ :=
    DeviceShelf.serves distinct
  have fits : emptyShelf.storage.coder.Fits onShelf.count :=
    ⟨.made shape, rfl⟩
  rcases
      blockRun_answers 0 420 ⟨["file"]⟩
        serves fits ⟨rfl, Nat.zero_le _, rfl⟩ with
    ⟨handle, created, ran, runs⟩
  refine ⟨handle, created, ran, runs _
    [.written 5, .written 1, .written 5, .written 3, .data [1, 2, 3],
      .truncated, .written 2, .size 7, .data [9, 8, 7, 6, 5], .truncated,
      .data []] ?_⟩
  refine .call (.append [] [1, 2, 3, 4, 5] (by decide)) ?_
  refine .call (.append [[1, 2, 3, 4, 5]] [6] (by decide)) ?_
  refine .call (.rewrite [] [[6]] [1, 2, 3, 4, 5] [9, 8, 7, 6, 5] rfl) ?_
  refine .call (.lengthen [[9, 8, 7, 6, 5]] [6] [1, 2, 3] (by decide)) ?_
  refine .call (.read [[9, 8, 7, 6, 5]] [] [1, 2, 3] 4
    (.inr ⟨rfl, by decide⟩)) ?_
  refine .call (.shorten [[9, 8, 7, 6, 5]] [] [1, 2, 3] 2 none (.inl rfl)
    (by decide) (by decide)) ?_
  refine .call (.fileSize [[9, 8, 7, 6, 5], [1, 2]] (some handle)
    (.inr rfl)) ?_
  refine .call (.read [] [[1, 2]] [9, 8, 7, 6, 5] 5 (.inl rfl)) ?_
  refine .call (.cut [[9, 8, 7, 6, 5]] [[1, 2]] none (.inl rfl)) ?_
  exact .call (.readEnd [[9, 8, 7, 6, 5]] 1) (.done _)

end Devices

end Strata
