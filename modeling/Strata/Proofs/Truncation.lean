import Strata.Proofs.Assembly
import Strata.Proofs.BlockRequests
import Strata.Proofs.FailedWrites
import Strata.Proofs.DeviceBlocks

/-!
# Truncation without the aligning stage

Without the aligning stage a cut reaches the devices as it is asked for.  Where
copies or shares are kept, the device files hold the truth, and a cut of them
is a cut of the file.  Where there are books, they keep whole blocks only: what
a cut takes from the inside of a block is still read, and what it adds at the
end is not there.
-/

namespace Strata

variable {σ η α : Type}

namespace Layer

/-! ## Runs of requests through one handle -/

/-- A request is made through a certain handle, or through none. -/
def Own
    (handle : FileHandle)
    (on : Option FileHandle) :
    Prop :=
  on = none ∨ on = some handle

theorem Own.eq
    {handle other : FileHandle}
    (own : Own handle (some other)) :
    other = handle := by
  rcases own with none | same
  · cases none
  · exact Option.some.inj same

/-- The state that requests leave, each of them made whatever became of those
before it. -/
def leave
    (layer : Layer σ)
    (path : Path)
    (requests : List FileRequest)
    (state : σ) :
    σ :=
  requests.foldl
    (fun reached request => ((layer.perform path request).execute reached).2)
    state

/-- The requests on one open file preserve what holds. -/
structure Preserves
    (holds : σ → Prop)
    (layer : Layer σ)
    (path : Path)
    (handle : FileHandle) :
    Prop where
  read : ∀ offset length,
    (layer.read path handle offset length).Preserves holds
  write : ∀ offset data,
    (layer.write path handle offset data).Preserves holds
  truncate : ∀ on size, Own handle on →
    (layer.truncate path on size).Preserves holds
  fileSize : ∀ on, Own handle on →
    (layer.fileSize path on).Preserves holds
  attributes : ∀ on, Own handle on →
    (layer.attributes path on).Preserves holds

variable
  {layer lower : Layer σ}
  {path : Path}
  {handle : FileHandle}

theorem Preserves.perform
    {holds : σ → Prop}
    (preserves : layer.Preserves holds path handle)
    {request : FileRequest}
    (own : Own handle request.handle?) :
    (layer.perform path request).Preserves holds := by
  cases request with
  | read other offset length =>
      obtain rfl := own.eq
      exact (preserves.read offset length).bind fun _ => .pure _
  | write other offset data =>
      obtain rfl := own.eq
      exact (preserves.write offset data).bind fun _ => .pure _
  | truncate on size =>
      exact (preserves.truncate on size own).bind fun _ => .pure _
  | fileSize on => exact (preserves.fileSize on own).bind fun _ => .pure _
  | attributes on => exact (preserves.attributes on own).bind fun _ => .pure _

theorem Preserves.leave
    {holds : σ → Prop}
    (preserves : layer.Preserves holds path handle)
    {requests : List FileRequest}
    (own : ∀ request ∈ requests, Own handle request.handle?)
    {state : σ}
    (held : holds state) :
    holds (layer.leave path requests state) := by
  induction requests generalizing state with
  | nil => exact held
  | cons request rest ih =>
      refine ih (fun other member => own other (List.mem_cons_of_mem _ member))
        ?_
      exact preserves.perform (own request List.mem_cons_self) state held

/-! ## What a cut has to leave -/

/-- Some read of the file delivers a byte at a position. -/
def Delivers
    (layer : Layer σ)
    (path : Path)
    (handle : FileHandle)
    (state : σ)
    (position : Nat)
    (byte : UInt8) :
    Prop :=
  ∃ offset length data,
    ((layer.read path handle offset length).execute state).1 = .ok data ∧
      offset ≤ position ∧ data[position - offset]? = some byte

/--
What a cut of a file of `held` bytes to `size` has to leave: the file has that
size, no byte is delivered behind it, what is delivered before both sizes is
what was delivered there before, and what was added reads as zeros.
-/
structure Resized
    (layer : Layer σ)
    (path : Path)
    (handle : FileHandle)
    (held size : Nat)
    (before after : σ) :
    Prop where
  sized : ∀ on, Own handle on →
    ((layer.fileSize path on).execute after).1 = .ok size
  bounded : ∀ position byte,
    layer.Delivers path handle after position byte → position < size
  kept : ∀ position byte,
    layer.Delivers path handle after position byte → position < held →
      ∀ old, layer.Delivers path handle before position old ↔ old = byte
  grown : held < size → ∀ length, 0 < length →
    ∃ data,
      ((layer.read path handle held length).execute after).1 = .ok data ∧
        data ≠ [] ∧ ∀ byte ∈ data, byte = 0

/-! ## Byte strings -/

/-- Through one handle or none the file is a byte string. -/
structure ByteFile
    (layer : Layer σ)
    (path : Path)
    (handle : FileHandle)
    (Holds : Bytes → σ → Prop) :
    Prop where
  read : ∀ offset length bytes state, Holds bytes state →
    (layer.read path handle offset length).Answers state
      (bytes.slice offset length) (Holds bytes)
  write : ∀ offset data bytes state, Holds bytes state →
    (layer.write path handle offset data).Answers state data.length
      (Holds (bytes.splice offset data))
  truncate : ∀ on size bytes state, Own handle on → Holds bytes state →
    (layer.truncate path on size).Answers state ()
      (Holds (bytes.resize size))
  fileSize : ∀ on bytes state, Own handle on → Holds bytes state →
    (layer.fileSize path on).Answers state bytes.length (Holds bytes)
  attributes : ∀ on bytes state, Own handle on → Holds bytes state →
    ∃ found, (layer.attributes path on).Answers state found (Holds bytes)

namespace ByteFile

variable
  {Holds : Bytes → σ → Prop}
  (file : layer.ByteFile path handle Holds)

include file

theorem preserves :
    layer.Preserves (fun state => ∃ bytes, Holds bytes state) path handle where
  read offset length := .of_answers fun state ⟨bytes, held⟩ =>
    ⟨_, (file.read offset length bytes state held).weaken
      fun _ kept => ⟨bytes, kept⟩⟩
  write offset data := .of_answers fun state ⟨bytes, held⟩ =>
    ⟨_, (file.write offset data bytes state held).weaken
      fun _ kept => ⟨_, kept⟩⟩
  truncate on size own := .of_answers fun state ⟨bytes, held⟩ =>
    ⟨_, (file.truncate on size bytes state own held).weaken
      fun _ kept => ⟨_, kept⟩⟩
  fileSize on own := .of_answers fun state ⟨bytes, held⟩ =>
    ⟨_, (file.fileSize on bytes state own held).weaken
      fun _ kept => ⟨bytes, kept⟩⟩
  attributes on own := .of_answers fun state ⟨bytes, held⟩ => by
    rcases file.attributes on bytes state own held with ⟨found, answers⟩
    exact ⟨found, answers.weaken fun _ kept => ⟨bytes, kept⟩⟩

/-- Reads show the bytes of the string, each at its position. -/
theorem delivers_iff
    {bytes : Bytes}
    {state : σ}
    (held : Holds bytes state)
    {position : Nat}
    {byte : UInt8} :
    layer.Delivers path handle state position byte ↔
      bytes[position]? = some byte := by
  constructor
  · rintro ⟨offset, length, data, ran, before, found⟩
    rw [(file.read offset length bytes state held).answer_eq] at ran
    obtain rfl := Except.ok.inj ran
    rw [Bytes.getElem?_slice, Nat.add_sub_cancel' before] at found
    split at found
    · exact found
    · cases found
  · intro found
    refine ⟨position, 1, _,
      (file.read position 1 bytes state held).answer_eq, Nat.le_refl _, ?_⟩
    rw [Bytes.getElem?_slice, Nat.sub_self, if_pos Nat.one_pos, Nat.add_zero,
      found]

/-- A cut of a byte string leaves what a cut has to leave. -/
theorem resized
    {bytes : Bytes}
    {before : σ}
    (held : Holds bytes before)
    {on : Option FileHandle}
    (own : Own handle on)
    (size : Nat) :
    (layer.truncate path on size).Answers before ()
      (layer.Resized path handle bytes.length size before) := by
  refine (file.truncate on size bytes before own held).weaken
    fun after cut => ⟨fun other own => ?_, ?_, ?_, fun grows length some => ?_⟩
  · rw [(file.fileSize other _ after own cut).answer_eq,
      Bytes.length_resize]
  · intro position byte delivered
    rw [file.delivers_iff cut, Bytes.getElem?_resize] at delivered
    split at delivered
    · assumption
    · cases delivered
  · intro position byte delivered inside old
    rw [file.delivers_iff cut, Bytes.getElem?_resize] at delivered
    rw [file.delivers_iff held, List.getElem?_eq_getElem inside]
    rw [List.getElem?_eq_getElem inside] at delivered
    split at delivered
    · rw [Option.getD_some, Option.some.injEq] at delivered
      rw [← delivered, Option.some.injEq]
      exact eq_comm
    · cases delivered
  · refine ⟨_, (file.read bytes.length length _ after cut).answer_eq, ?_, ?_⟩
    · rw [← List.length_pos_iff, Bytes.length_slice, Bytes.length_resize]
      omega
    · intro byte member
      rcases List.mem_iff_getElem?.mp member with ⟨index, found⟩
      rw [Bytes.getElem?_slice, Bytes.getElem?_resize,
        List.getElem?_eq_none (Nat.le_add_right _ _)] at found
      split at found
      · split at found
        · exact (Option.some.inj found).symm
        · cases found
      · cases found

end ByteFile

/-! ## Books -/

/--
What goes wrong with a file of blocks that is known to be `held` bytes long: a
cut past its end succeeds, and no read from there does.
-/
structure Stops
    (layer : Layer σ)
    (path : Path)
    (handle : FileHandle)
    (Knows Lacks : Nat → σ → Prop) :
    Prop where
  fileSize : ∀ on held state, Own handle on → Knows held state →
    (layer.fileSize path on).Answers state held (Knows held)
  truncate : ∀ on size held state, Own handle on → Knows held state →
    (layer.truncate path on size).Answers state ()
      (fun reached => held < size → Lacks held reached)
  read : ∀ length held state, Lacks held state →
    ∃ error, ((layer.read path handle held length).execute state).1 =
      .error error

/-- A cut past the end of such a file does not leave what a cut has to
leave. -/
theorem Stops.not_resized
    {Knows Lacks : Nat → σ → Prop}
    (stops : layer.Stops path handle Knows Lacks)
    {held size : Nat}
    {before after : σ}
    (lacks : Lacks held after)
    (grows : held < size) :
    ¬ layer.Resized path handle held size before after := by
  intro resized
  rcases resized.grown grows 1 Nat.one_pos with ⟨data, read, -⟩
  rcases stops.read 1 held after lacks with ⟨error, failed⟩
  rw [read] at failed
  cases failed

/-! ## A cipher that leaves blocks as they are -/

section Null

variable
  {framer : Framer}
  {below : Layer (Session η)}
  (null : framer.mode = .null)
  (recorder : Nat)

theorem scheme_of_null
    (null : framer.mode = .null) :
    framer.scheme = .null := by
  unfold Framer.mode at null
  cases scheme : framer.scheme with
  | null => rfl
  | _ => simp [scheme] at null

include null

theorem truncate_of_null :
    (below.framed framer Session.drawNonce
        (Session.meter recorder)).truncate = below.truncate := by
  funext path on size
  simp only [framed, Framer.storedSize, scheme_of_null null]

theorem fileSize_of_null :
    (below.framed framer Session.drawNonce
        (Session.meter recorder)).fileSize = below.fileSize := by
  funext path on
  simp only [framed, Cipher.sizeOf, Framer.logicalSize, scheme_of_null null,
    bind_pure]

theorem attributes_of_null :
    (below.framed framer Session.drawNonce
        (Session.meter recorder)).attributes = below.attributes := by
  funext path on
  simp only [framed, Cipher.attributesOf, Cipher.sizeOf, Framer.logicalSize,
    scheme_of_null null, pure_bind, ite_self]
  exact bind_pure _

theorem read_of_null
    (path : Path)
    (handle : FileHandle)
    (offset length : Nat) :
    (below.framed framer Session.drawNonce (Session.meter recorder)).read path
        handle offset length =
      (Session.meter recorder).timed "read" (do
        let frame ← below.read path handle offset length
        return frame.take length) := by
  have taken (frame : Bytes) :
      (if frame.isEmpty then
        return []
      else do
        let block ← Action.ofExcept (.ok frame)
        return block.take length : Action (Session η) Bytes) =
        return frame.take length := by
    split
    · rename_i empty
      rw [List.isEmpty_iff.mp empty, List.take_nil]
    · rfl
  simp only [framed, Cipher.readBlock, Framer.storedOffset,
    Framer.storedLength, Framer.overhead, Framer.decode, scheme_of_null null,
    Nat.add_zero, taken]

theorem write_of_null
    (path : Path)
    (handle : FileHandle)
    (offset : Nat)
    (data : Bytes) :
    (below.framed framer Session.drawNonce (Session.meter recorder)).write
        path handle offset data =
      (Session.meter recorder).timed "write" (do
        let written ← below.write path handle offset data
        if written < data.length then
          throw (.shortTransfer data.length written)
        else
          return data.length) := by
  simp only [framed, Cipher.writeBlock, Framer.storedOffset, Framer.frameWith,
    Framer.encode, scheme_of_null null, pure_bind]

/-- Over a byte string such a cipher is a byte string. -/
theorem ByteFile.of_null
    {Holds : Bytes → η → Prop}
    (file : below.ByteFile path handle
      (fun bytes session => Holds bytes session.storage)) :
    (below.framed framer Session.drawNonce
        (Session.meter recorder)).ByteFile path handle
      (fun bytes session => Holds bytes session.storage) where
  truncate on size bytes session own held := by
    rw [truncate_of_null null recorder]
    exact file.truncate on size bytes session own held
  fileSize on bytes session own held := by
    rw [fileSize_of_null null recorder]
    exact file.fileSize on bytes session own held
  attributes on bytes session own held := by
    rw [attributes_of_null null recorder]
    exact file.attributes on bytes session own held
  read offset length bytes session held := by
    rw [read_of_null null recorder]
    rcases Session.timed_answers recorder "read" _ session with
      ⟨started, storage, timed⟩
    rw [← storage] at held
    refine timed _ _ ?_
    refine (file.read offset length bytes started held).bind
      fun reached kept => ?_
    rw [List.take_of_length_le]
    · exact .pure kept
    · rw [Bytes.length_slice]
      exact Nat.min_le_left _ _
  write offset data bytes session held := by
    rw [write_of_null null recorder]
    rcases Session.timed_answers recorder "write" _ session with
      ⟨started, storage, timed⟩
    rw [← storage] at held
    refine timed _ _ ?_
    refine (file.write offset data bytes started held).bind
      fun reached kept => ?_
    rw [if_neg (Nat.lt_irrefl _)]
    exact .pure kept

theorem Preserves.of_null
    {holds : η → Prop}
    (preserves : below.Preserves (fun session => holds session.storage) path
      handle) :
    (below.framed framer Session.drawNonce
        (Session.meter recorder)).Preserves
      (fun session => holds session.storage) path handle where
  truncate on size own := by
    rw [truncate_of_null null recorder]
    exact preserves.truncate on size own
  fileSize on own := by
    rw [fileSize_of_null null recorder]
    exact preserves.fileSize on own
  attributes on own := by
    rw [attributes_of_null null recorder]
    exact preserves.attributes on own
  read offset length := by
    rw [read_of_null null recorder]
    exact Session.timed_preserves recorder _
      ((preserves.read offset length).bind fun _ => .pure _)
  write offset data := by
    rw [write_of_null null recorder]
    refine Session.timed_preserves recorder _
      ((preserves.write offset data).bind fun written => ?_)
    split
    · exact .throw _
    · exact .pure _

theorem Stops.of_null
    {Knows Lacks : Nat → η → Prop}
    (stops : below.Stops path handle
      (fun held session => Knows held session.storage)
      (fun held session => Lacks held session.storage)) :
    (below.framed framer Session.drawNonce (Session.meter recorder)).Stops
      path handle
      (fun held session => Knows held session.storage)
      (fun held session => Lacks held session.storage) where
  fileSize on held session own known := by
    rw [fileSize_of_null null recorder]
    exact stops.fileSize on held session own known
  truncate on size held session own known := by
    rw [truncate_of_null null recorder]
    exact stops.truncate on size held session own known
  read length held session lacks := by
    rw [read_of_null null recorder]
    rcases stops.read length held
        { session with ticks := session.ticks + 1 } lacks with
      ⟨error, failed⟩
    refine ⟨error, ?_⟩
    simp only [Meter.timed, Session.meter, Action.execute_ofRun,
      Action.execute_bind]
    generalize (below.read path handle held length).execute _ = ran at *
    rcases ran with ⟨_ | found, reached⟩
    · exact failed
    · cases failed

end Null

end Layer

/-! ## Devices without books -/

variable
  {κ : Type}
  {devices : Devices κ}
  {base : Coder}
  {path : Path}
  {Holds : List Descriptor → List Bytes → κ → Prop}
  {opened : List Descriptor}
  {fleet : Fleet κ}

/-- Through one handle or none a file on devices without books is a byte
string. -/
theorem Layer.ofDevices_byteFile
    (plain : base.mode ≠ .erasure)
    (fits : base.Fits devices.count)
    (serves : devices.backend.Serves (devices.filePlaces base path) Holds)
    (recorder : Nat) :
    (Layer.ofDevices devices (Session.meter recorder)).ByteFile path ⟨opened⟩
      (fun bytes session =>
        session.storage.Contains base devices.count (Holds opened) bytes) where
  read offset length bytes session held := by
    rcases
        Session.timed_answers recorder "read"
          (Session.onStorage (devices.read path ⟨opened⟩ offset length))
          session with
      ⟨started, storage, timed⟩
    rw [← storage] at held
    exact timed _ _ (Session.onStorage_answers
      (Devices.read_contained_answers plain fits serves offset length held))
  write offset data bytes session held := by
    rcases
        Session.timed_answers recorder "write"
          (devices.writeDrawn path ⟨opened⟩ offset data) session with
      ⟨started, storage, timed⟩
    rw [← storage] at held
    refine timed _ _ ?_
    by_cases none : data = []
    · subst none
      exact .pure held
    · refine Devices.writeDrawn_answers none fun pads count sized => ?_
      rw [held.coder] at count
      exact Devices.write_contained_answers plain fits serves count sized held
  truncate on size bytes session own held :=
    Session.onStorage_answers
      (Devices.truncate_contained_answers plain serves own size held)
  fileSize on bytes session own held := by
    rcases
        Devices.attributes_contained_answers plain fits serves own held with
      ⟨found, size, answers⟩
    refine (Session.onStorage_answers answers).bind fun reached kept => ?_
    rw [size]
    exact .pure (kept ▸ held)
  attributes on bytes session own held := by
    rcases
        Devices.attributes_contained_answers plain fits serves own held with
      ⟨found, -, answers⟩
    exact ⟨found, (Session.onStorage_answers answers).weaken
      fun reached kept => kept ▸ held⟩

/-! ## Devices with books -/

/-- All files of the devices have one length. -/
def Fleet.InRows
    (devices : Nat)
    (files : List Bytes → κ → Prop)
    (fleet : Fleet κ) :
    Prop :=
  ∃ contents width, files contents fleet.host ∧
    contents.length = devices ∧
      ∀ content ∈ contents, content.length = width

/-- The file at a path has `held` bytes according to the books of its coder,
and all of its fragment files have one length. -/
structure Fleet.Booked
    (base : Coder)
    (devices : Nat)
    (files : List Bytes → κ → Prop)
    (path : Path)
    (held : Nat)
    (fleet : Fleet κ) :
    Prop where
  follows : Coder.Follows devices base fleet.coder
  size : fleet.coder.trackedSize? path = some held
  rows : fleet.InRows devices files

/-- The books have no block at an offset inside of the file at a path. -/
def Fleet.Lacks
    (path : Path)
    (offset : Nat)
    (fleet : Fleet κ) :
    Prop :=
  ∀ length, fleet.coder.locate path offset length =
    .error (.missingOffset path.render offset)

/-- The file at a path is known to the books, whatever size they give. -/
def Fleet.InBooks
    (base : Coder)
    (devices : Nat)
    (files : List Bytes → κ → Prop)
    (path : Path)
    (fleet : Fleet κ) :
    Prop :=
  ∃ held, fleet.Booked base devices files path held

namespace Devices

variable {held : Nat}

theorem inBooks_of_erasure
    (books : base.mode = .erasure)
    (follows : Coder.Follows devices.count base fleet.coder)
    (rows : fleet.InRows devices.count (Holds opened)) :
    fleet.InBooks base devices.count (Holds opened) path := by
  have mode := follows.mode.trans books
  cases kind : fleet.coder with
  | erasure coder =>
      exact ⟨coder.trackedSize path, follows, by rw [kind]; rfl, rows⟩
  | _ =>
      rw [kind] at mode
      cases mode

theorem read_of_lacks
    (lacks : fleet.Lacks path held)
    (handle : FileHandle)
    (length : Nat) :
    ((devices.read path handle held length).execute fleet).1 =
      .error (.missingOffset path.render held) := by
  have asked : (Fleet.askCoder (κ := κ)
      (·.locate path held length)).execute fleet =
        (.error (.missingOffset path.render held), fleet) := by
    simp only [Fleet.askCoder, Action.execute_ofRun, lacks length]
  rw [read, Action.execute_bind, asked]

variable
  (books : base.mode = .erasure)
  (serves : devices.backend.Serves (devices.filePlaces base path) Holds)

include serves in
theorem read_preserves_books
    (offset length : Nat) :
    (devices.read path ⟨opened⟩ offset length).Preserves
      (Fleet.InBooks base devices.count (Holds opened) path) := by
  rintro fleet ⟨held, follows, size, contents, width, holds, count, same⟩
  have kept := read_preserves serves fleet.coder path offset length fleet
    ⟨rfl, holds⟩
  refine ⟨held, ?_, ?_, contents, width, kept.2, count, same⟩
  · rw [kept.1]
    exact follows
  · rw [kept.1]
    exact size

include books serves in
/-- Whether it is taken or refused, a block leaves fragment files of one
length. -/
theorem write_preserves_books
    (offset : Nat)
    (block : Bytes)
    (pads : List Bytes) :
    (devices.write path ⟨opened⟩ offset block pads).Preserves
      (Fleet.InBooks base devices.count (Holds opened) path) := by
  rintro fleet ⟨held, follows, -, contents, width, holds, count, same⟩
  have mode := follows.mode.trans books
  rcases fleet with ⟨_ | _ | coder, host⟩
  · cases mode
  · cases mode
  have left :
      ((devices.write path ⟨opened⟩ offset block pads).execute
        ⟨.erasure coder, host⟩).2.coder =
          .erasure (coder.after (.encode path block offset)) :=
    coder_write rfl ⟨opened⟩ offset block pads
  have later := follows.trans
    (Coder.follows_after follows.fits (.encode path block offset))
  rw [← left] at later
  refine inBooks_of_erasure books later ?_
  clear left later
  rw [write, Action.execute_bind]
  have encoded : (Fleet.onCoder (Coder.encode path block offset devices.count
      pads)).execute (⟨.erasure coder, host⟩ : Fleet κ) =
        (((ErasureCoder.encode path block offset).execute coder).1.map
            fun split => ⟨split.1, Coder.placementOf split.2⟩,
          ⟨.erasure ((ErasureCoder.encode path block offset).execute coder).2,
            host⟩) :=
    rfl
  rw [encoded]
  rcases coder.encode_cases path block offset with
    ⟨error, -, ran⟩ | ⟨id, identities, fragments, -, split, placed⟩
  · rw [ran]
    exact ⟨contents, width, holds, count, same⟩
  · rcases placed with ⟨-, ran⟩ | ⟨start, extent, -, -, ran⟩
    · rw [ran]
      exact ⟨contents, width, holds, count, same⟩
    · rw [ran]
      have nonempty : block ≠ [] :=
        List.length_pos_iff.mp (ErasureCoder.pos_of_fragments split)
      rcases Coder.decodes_erasure follows.fits.1.shaped.data
          follows.fits.1.shaped.weights nonempty with
        ⟨_, again, decodes⟩
      obtain rfl := Except.ok.inj (split.symm.trans again)
      have wide := coder.fragmentLength_pos follows.fits.1.shaped.data
        (List.length_pos_iff.mpr nonempty)
      dsimp only [Except.map]
      -- What comes after the fan-out leaves the device files alone.
      refine Action.Preserves.bind
        (.of_answers ?_ : Action.Preserves
          (Fleet.InRows devices.count (Holds opened)) _)
        (fun outcomes => ?_) _ ⟨contents, width, holds, count, same⟩
      · rintro fleet ⟨contents, width, holds, count, same⟩
        have each : fragments.length = contents.length := by
          rw [decodes.count, follows.fits.2, count]
        refine ⟨_, (fanOut_write_answers serves each decodes.length
          holds).weaken fun reached kept => ⟨_, _, kept.2, ?_,
            length_of_mem_spliceAll same decodes.length wide⟩⟩
        rw [length_spliceAll each, count]
      · split
        · exact .bind (.throw _) fun _ => .pure _
        · exact .pure _

/-- No block is recorded at the end of a file, so that a longer file lacks the
one that should be there. -/
theorem lacks_of_cut
    {coder : ErasureCoder}
    (reached : coder.Reached)
    {size : Nat}
    (grows : coder.trackedSize path < size)
    {fleet : Fleet κ}
    (cut : fleet.coder = .erasure (coder.after (.truncate path size))) :
    fleet.Lacks path (coder.trackedSize path) := by
  intro length
  have recorded := (reached.sound.truncate_recorded path size).2
  have absent : ((coder.recorded path).cut size).blocks.find?
      (coder.trackedSize path) = none := by
    rw [FileExtents.cut, Table.find?_keep, if_pos (by simpa using grows)]
    cases found : (coder.recorded path).blocks.find?
        (coder.trackedSize path) with
    | none => rfl
    | some extent =>
        -- A block starts before the end of its file.
        have before := (reached.measured_recorded path).inside _ _ found
        rw [coder.trackedSize_eq] at before
        exact absurd before (Nat.lt_irrefl _)
  have past : ¬ ((coder.recorded path).cut size).size ≤
      coder.trackedSize path :=
    Nat.not_le.mpr grows
  rw [cut, Coder.locate, ErasureCoder.locate_eq, recorded, absent]
  simp only [if_neg past]
  rfl

include books serves in
/-- A cut sets the size in the books, and what it adds to the file is not
there. -/
theorem truncate_booked_answers
    {on : Option FileHandle}
    (own : on = none ∨ on = some ⟨opened⟩)
    (size : Nat)
    (booked : fleet.Booked base devices.count (Holds opened) path held) :
    (devices.truncate path on size).Answers fleet ()
      (fun reached =>
        reached.Booked base devices.count (Holds opened) path size ∧
          (held < size → reached.Lacks path held)) := by
  rcases booked with ⟨follows, known, contents, width, holds, count, same⟩
  have mode := follows.mode.trans books
  rcases fleet with ⟨_ | _ | coder, host⟩
  · cases mode
  · cases mode
  obtain rfl := Option.some.inj known
  have later := follows.trans
    (Coder.follows_after follows.fits (.truncate path size))
  have recorded := (follows.fits.1.sound.truncate_recorded path size).2
  have held {reached : Fleet κ} {contents : List Bytes} {width : Nat}
      (cut : reached.coder = .erasure (coder.after (.truncate path size)))
      (holds : Holds opened contents reached.host)
      (count : contents.length = devices.count)
      (same : ∀ content ∈ contents, content.length = width) :
      reached.Booked base devices.count (Holds opened) path size ∧
        (coder.trackedSize path < size →
          reached.Lacks path (coder.trackedSize path)) := by
    refine ⟨⟨?_, ?_, contents, width, holds, count, same⟩,
      fun grows => lacks_of_cut follows.fits.1 grows cut⟩
    · rw [cut]
      exact later
    · rw [cut]
      change some ((coder.after (.truncate path size)).trackedSize path) = _
      rw [ErasureCoder.trackedSize_eq, recorded]
      rfl
  have cut : (Fleet.onCoder (Action.ofRun fun coder =>
      (.ok (coder.truncate path size).1,
        (coder.truncate path size).2))).Answers
        (⟨.erasure coder, host⟩ : Fleet κ) (coder.truncate path size).1
          (· = ⟨.erasure (coder.after (.truncate path size)), host⟩) :=
    ⟨_, rfl, rfl⟩
  rw [truncate]
  refine cut.bind fun middle kept => ?_
  subst kept
  cases (coder.truncate path size).1 with
  | none => exact .pure (held rfl holds count same)
  | some length =>
      have shorter : ∀ content ∈ contents.map (·.resize length),
          content.length = length := by
        intro content member
        rcases List.mem_map.mp member with ⟨old, -, rfl⟩
        exact Bytes.length_resize _ _
      have done {reached : Fleet κ}
          (kept : reached.coder =
              .erasure (coder.after (.truncate path size)) ∧
            Holds opened (contents.map (·.resize length)) reached.host) :=
        held kept.1 kept.2 (by rw [List.length_map, count]) shorter
      have kept : Holds opened contents
          (⟨.erasure (coder.after (.truncate path size)), host⟩ :
            Fleet κ).host :=
        holds
      dsimp only
      rcases own with rfl | rfl
      · have files : (devices.files path).Answers
            (⟨.erasure (coder.after (.truncate path size)), host⟩ : Fleet κ)
            (devices.filePlaces base path)
            (· = ⟨.erasure (coder.after (.truncate path size)), host⟩) := by
          rw [← filePlaces_of_follows later path]
          exact Fleet.askCoder_answers rfl
        refine files.bind fun reached kept => ?_
        subst kept
        have paired :
            (devices.filePlaces base path).length = contents.length := by
          rw [length_filePlaces, count]
        exact (fanOutDone_truncate_answers serves length paired kept).weaken
          fun _ => done
      · exact (onHandle_truncate_answers serves length kept).weaken
          fun _ => done

include serves in
/-- The size of the file is that of the books, asked by path or handle. -/
theorem attributes_booked_answers
    {on : Option FileHandle}
    (own : on = none ∨ on = some ⟨opened⟩)
    (booked : fleet.Booked base devices.count (Holds opened) path held) :
    ∃ found, found.size = held ∧
      (devices.attributes path on).Answers fleet found (· = fleet) := by
  rcases booked with ⟨follows, known, contents, width, holds, count, same⟩
  rw [← filePlaces_of_follows follows path] at serves
  rcases attributes_held_answers serves own count follows.fits.devices_pos
      holds with
    ⟨found, content, -, size, answers⟩
  rw [known] at size
  exact ⟨found, size, answers⟩

end Devices

section Books

variable
  (books : base.mode = .erasure)
  (serves : devices.backend.Serves (devices.filePlaces base path) Holds)
  (recorder : Nat)

include books serves

theorem Devices.writeDrawn_preserves_books
    (offset : Nat)
    (block : Bytes) :
    (devices.writeDrawn path ⟨opened⟩ offset block).Preserves
      (fun session =>
        session.storage.InBooks base devices.count (Holds opened) path) := by
  unfold writeDrawn
  split
  · exact .pure _
  · refine Action.Preserves.bind
      (Session.onStorage_preserves fun _ known => known) fun coder => ?_
    refine Action.Preserves.bind (.of_answers fun session known => ?_)
      fun pads => ?_
    · rcases
          Session.drawPads_answers (coder.padCount devices.count) block.length
            session with
        ⟨pads, -, -, drawn⟩
      exact ⟨pads, drawn.weaken fun reached kept => kept ▸ known⟩
    · exact Session.onStorage_preserves
        (write_preserves_books books serves offset block pads)

/-- Whatever is asked of it, a file stays known to the books. -/
theorem Layer.ofDevices_preserves_books :
    (Layer.ofDevices devices (Session.meter recorder)).Preserves
      (fun session =>
        session.storage.InBooks base devices.count (Holds opened) path) path
      ⟨opened⟩ where
  read offset length :=
    Session.timed_preserves recorder _ (Session.onStorage_preserves
      (Devices.read_preserves_books serves offset length))
  write offset data :=
    Session.timed_preserves recorder _
      (Devices.writeDrawn_preserves_books books serves offset data)
  truncate on size own :=
    Session.onStorage_preserves <| .of_answers fun fleet ⟨held, booked⟩ =>
      ⟨(), (Devices.truncate_booked_answers books serves own size
        booked).weaken fun reached kept => ⟨size, kept.1⟩⟩
  fileSize on own := by
    refine Action.Preserves.bind (Session.onStorage_preserves
      (.of_answers fun fleet ⟨held, booked⟩ => ?_)) fun found => .pure _
    rcases Devices.attributes_booked_answers serves own booked with
      ⟨found, -, answers⟩
    exact ⟨found, answers.weaken fun reached kept => kept ▸ ⟨held, booked⟩⟩
  attributes on own := by
    refine Session.onStorage_preserves
      (.of_answers fun fleet ⟨held, booked⟩ => ?_)
    rcases Devices.attributes_booked_answers serves own booked with
      ⟨found, -, answers⟩
    exact ⟨found, answers.weaken fun reached kept => kept ▸ ⟨held, booked⟩⟩

theorem Layer.ofDevices_stops :
    (Layer.ofDevices devices (Session.meter recorder)).Stops path ⟨opened⟩
      (fun held session =>
        session.storage.Booked base devices.count (Holds opened) path held)
      (fun held session => session.storage.Lacks path held) where
  fileSize on held session own booked := by
    rcases Devices.attributes_booked_answers serves own booked with
      ⟨found, rfl, answers⟩
    exact (Session.onStorage_answers answers).bind fun reached kept =>
      .pure (kept ▸ booked)
  truncate on size held session own booked :=
    (Session.onStorage_answers (Devices.truncate_booked_answers books serves
      own size booked)).weaken fun reached kept => kept.2
  read length held session lacks :=
    ⟨_, Devices.read_of_lacks lacks ⟨opened⟩ length⟩

end Books

end Strata
