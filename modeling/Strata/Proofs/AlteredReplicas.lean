import Strata.Proofs.Joins
import Strata.Proofs.Truncation

/-!
# Altered copies

Copies are compared by the number of bytes that the devices deliver, and the
first one is believed.  So as long as requests go through the device stage, all
devices hold the same bytes; and when the copy of one device is changed below
it, a read is refused exactly where that changes how many bytes the device has
in the range.  Any other change goes unnoticed: on the first device it is
delivered, and on another one it is never looked at.
-/

namespace Strata

variable {σ κ : Type}

/-! ## Copies of different lengths -/

namespace Replica

/-- What copies come to: the first one, if the others are as long. -/
def compared :
    List Bytes → Except Error Bytes
  | [] => .ok []
  | first :: others =>
    (Fanout.agree first.length 1 (others.map .data)).map fun _ => first

variable
  {first other : Bytes}
  {others before after : List Bytes}

theorem compared_eq_ok
    {found : Bytes}
    (agreed : compared (first :: others) = .ok found) :
    found = first := by
  rw [compared] at agreed
  cases compares : Fanout.agree first.length 1 (others.map .data) with
  | error error =>
      rw [compares] at agreed
      cases agreed
  | ok _ =>
      rw [compares] at agreed
      exact (Except.ok.inj agreed).symm

/-- A fan-out that reads the copies compares them. -/
theorem join_data
    (copies : List Bytes) :
    Fanout.join ((copies.map Outcome.data).map Fanout.reported) true =
      (compared copies).map fun _ => copies.map .data := by
  rw [Fanout.join_of_outcomes, if_pos rfl]
  cases copies with
  | nil => rfl
  | cons first others =>
      have moved : Fanout.moved (.data first) = first.length := rfl
      rw [List.map_cons, Fanout.leading_cons, List.tail_cons, moved, compared]
      cases Fanout.agree first.length 1 (others.map .data) <;> rfl

theorem moved_data
    {length : Nat}
    (same : ∀ copy ∈ others, copy.length = length) :
    ∀ outcome ∈ others.map Outcome.data, Fanout.moved outcome = length := by
  intro outcome member
  rcases List.mem_map.mp member with ⟨copy, among, rfl⟩
  exact same copy among

theorem compared_of_length
    (same : ∀ copy ∈ others, copy.length = first.length) :
    compared (first :: others) = .ok first := by
  rw [compared, Fanout.agree_of_transferred 1 (moved_data same)]
  rfl

/-- The first device that differs is named. -/
theorem compared_of_other
    (same : ∀ copy ∈ before, copy.length = first.length)
    (differs : other.length ≠ first.length) :
    compared (first :: (before ++ other :: after)) =
      .error (.divergence (before.length + 1) first.length other.length) := by
  have found : Fanout.moved (.data other) ≠ first.length := differs
  rw [compared, List.map_append, List.map_cons,
    Fanout.agree_append 1 _ (moved_data same), Fanout.agree_cons,
    if_neg found, List.length_map, Nat.add_comm]
  rfl

variable
  {count device : Nat}
  {held altered : Bytes}

theorem length_of_mem_replicate
    {copy : Bytes}
    (member : copy ∈ List.replicate count held) :
    copy.length = held.length := by
  rw [List.eq_of_mem_replicate member]

theorem compared_replicate
    (some : 0 < count) :
    compared (List.replicate count held) = .ok held := by
  obtain ⟨rest, rfl⟩ : ∃ rest, count = rest + 1 := ⟨count - 1, by omega⟩
  exact compared_of_length fun copy => length_of_mem_replicate

/-- A copy that is as long as the others is not told from them, and believed
if it is the first. -/
theorem compared_altered_of_length
    (among : device < count)
    (same : altered.length = held.length) :
    compared ((List.replicate count held).set device altered) =
      .ok (if device = 0 then altered else held) := by
  obtain ⟨rest, rfl⟩ : ∃ rest, count = rest + 1 := ⟨count - 1, by omega⟩
  rw [List.replicate_succ]
  cases device with
  | zero =>
      exact compared_of_length fun copy member =>
        (length_of_mem_replicate member).trans same.symm
  | succ index =>
      refine compared_of_length fun copy member => ?_
      rcases List.mem_or_eq_of_mem_set member with old | rfl
      · exact length_of_mem_replicate old
      · exact same

/-- A longer or shorter copy is found: the first one by the next, and any other
by the first. -/
theorem compared_altered_of_differs
    (several : 1 < count)
    (among : device < count)
    (differs : altered.length ≠ held.length) :
    compared ((List.replicate count held).set device altered) =
      .error
        (if device = 0 then
          .divergence 1 altered.length held.length
        else
          .divergence device held.length altered.length) := by
  obtain ⟨rest, rfl⟩ : ∃ rest, count = rest + 2 := ⟨count - 2, by omega⟩
  rw [List.replicate_succ]
  cases device with
  | zero =>
      have none : ∀ copy ∈ ([] : List Bytes), copy.length = altered.length :=
        fun _ member => absurd member List.not_mem_nil
      exact compared_of_other none (Ne.symm differs)
  | succ index =>
      have inside : index < rest + 1 := Nat.lt_of_succ_lt_succ among
      rw [List.set_cons_succ, List.set_eq_take_append_cons_drop,
        if_pos (by simpa using inside), List.take_replicate,
        Nat.min_eq_left (Nat.le_of_lt inside),
        compared_of_other (fun copy => length_of_mem_replicate) differs,
        List.length_replicate]
      rfl

end Replica

/-! ## Devices with copies -/

/-- A fleet keeps copies, and these are what the device files contain. -/
structure Fleet.HasCopies
    (files : List Bytes → κ → Prop)
    (copies : List Bytes)
    (fleet : Fleet κ) :
    Prop where
  coder : fleet.coder = .replicate
  files : files copies fleet.host

namespace Devices

variable
  {devices : Devices κ}
  {path : Path}
  {places : List String}
  {Holds : List Descriptor → List Bytes → κ → Prop}
  {opened : List Descriptor}
  {bytes : Bytes}
  {copies : List Bytes}
  {fleet : Fleet κ}

section Copies

variable (serves : devices.backend.Serves places Holds)

include serves

/-- The same range is read of every copy, and nothing changes. -/
theorem fanOut_read_executes
    (nonempty : copies ≠ [])
    (offset length : Nat)
    (has : fleet.HasCopies (Holds opened) copies) :
    let read := copies.map (·.slice offset length)
    ∃ reached,
      (devices.fanOut (opened.map (.read · offset length))).execute fleet =
          ((Replica.compared read).map fun _ => read.map .data, reached) ∧
        reached.HasCopies (Holds opened) copies := by
  intro read
  have count := serves.opened _ _ _ has.files
  have transfer :
      (opened.map (DeviceRequest.read · offset length)).any (·.isTransfer) =
        true := by
    cases opened with
    | nil => exact absurd (List.length_eq_zero_iff.mp count.symm) nonempty
    | cons file rest => rfl
  have reads : ∀ (device : Nat) request outcome state,
      (opened.map (DeviceRequest.read · offset length))[device]? =
          some request →
        (read.map Outcome.data)[device]? = some outcome →
        Holds opened copies state →
          ∃ reached,
            devices.backend.perform request state =
                (Fanout.reported outcome, reached) ∧
              Holds opened copies reached := by
    intro device request outcome state asked answered holds
    rw [List.getElem?_map, Option.map_eq_some_iff] at asked
    rw [List.getElem?_map, List.getElem?_map, Option.map_map,
      Option.map_eq_some_iff] at answered
    rcases asked with ⟨file, there, rfl⟩
    rcases answered with ⟨copy, found, rfl⟩
    exact serves.read device file offset length copy _ _ _ holds there found
  rcases
      Fanout.dispatch_joins_outcomes (fun _ => Holds opened copies)
        (by simp [read, count]) has.files reads with
    ⟨host, ran, kept⟩
  rw [transfer, Replica.join_data] at ran
  refine ⟨⟨fleet.coder, host⟩, ?_, has.coder, kept⟩
  simp only [fanOut, Fleet.onHost, Action.execute_ofRun, ran]

/-- A read delivers what the copies come to in its range. -/
theorem read_copies
    (path : Path)
    (nonempty : copies ≠ [])
    (offset length : Nat)
    (has : fleet.HasCopies (Holds opened) copies) :
    ∃ reached,
      (devices.read path ⟨opened⟩ offset length).execute fleet =
          (Replica.compared (copies.map (·.slice offset length)), reached) ∧
        reached.HasCopies (Holds opened) copies := by
  have located : (Fleet.askCoder (κ := κ)
      (·.locate path offset length)).execute fleet =
        (.ok (some ⟨offset, length, none⟩), fleet) := by
    simp only [Fleet.askCoder, Action.execute_ofRun, has.coder, Coder.locate]
  rw [read, Action.execute_bind, located]
  dsimp only
  obtain ⟨first, others, rfl⟩ := List.exists_cons_of_ne_nil nonempty
  by_cases none : length = 0
  · -- Nothing is asked of the devices, where nothing differs.
    refine ⟨fleet, ?_, has⟩
    have empty (copy : Bytes) : copy.slice offset length = [] := by
      rw [none, Bytes.slice, List.take_zero]
    rw [if_pos none, List.map_cons, Replica.compared_of_length, empty]
    · rfl
    · intro copy member
      rcases List.mem_map.mp member with ⟨other, -, rfl⟩
      rw [empty, empty]
  rcases fanOut_read_executes serves nonempty offset length has with
    ⟨reached, ran, kept⟩
  refine ⟨reached, ?_, kept⟩
  rw [if_neg none, Action.execute_bind, ran, List.map_cons]
  cases agreed : Replica.compared (first.slice offset length ::
      others.map (·.slice offset length)) with
  | error error => rfl
  | ok found =>
      obtain rfl := Replica.compared_eq_ok agreed
      have decoded (fragments : List Bytes) :
          (Fleet.askCoder (·.decode (first.slice offset length :: fragments)
            ⟨offset, length, .none⟩)).execute reached =
              (.ok (first.slice offset length), reached) := by
        simp only [Fleet.askCoder, Action.execute_ofRun, kept.coder,
          Coder.decode, Replica.decode]
      have whole : (first.slice offset length).take length =
          first.slice offset length := by
        rw [Bytes.slice, List.take_take, Nat.min_self]
      simp only [Except.map, List.map_cons, Outcome.bytes, List.headD_cons]
      split
      · rename_i past
        rw [List.isEmpty_iff.mp past]
        rfl
      · rw [Action.execute_bind, decoded]
        simp only [whole, Action.execute_pure]

end Copies

/-! ## Requests to equal copies -/

variable
  (some : 0 < devices.count)
  (has : fleet.HasCopies (Holds opened) (List.replicate devices.count bytes))

include some has

/-- A write reaches every copy. -/
theorem write_copies_answers
    (serves : devices.backend.Serves places Holds)
    (offset : Nat)
    (block : Bytes)
    (pads : List Bytes) :
    (devices.write path ⟨opened⟩ offset block pads).Answers fleet block.length
      (Fleet.HasCopies (Holds opened)
        (List.replicate devices.count (bytes.splice offset block))) := by
  have encoded : (Coder.encode path block offset devices.count pads).Answers
      fleet.coder
      ⟨List.replicate devices.count block, offset, block.length,
        .some block.length⟩
      (· = fleet.coder) := by
    rw [has.coder]
    exact ⟨_, rfl, rfl⟩
  have nonempty : List.replicate devices.count block ≠ [] := by
    rw [Ne, List.replicate_eq_nil_iff]
    omega
  have spliced : spliceAll (List.replicate devices.count bytes) offset
      (List.replicate devices.count block) =
        List.replicate devices.count (bytes.splice offset block) := by
    rw [spliceAll, List.zipWith_replicate, Nat.min_self]
  refine (write_fragments_answers serves encoded nonempty
    (fun fragment => Replica.length_of_mem_replicate) (by simp)
    has.files).weaken fun reached kept => ?_
  exact ⟨kept.1.trans has.coder, spliced ▸ kept.2⟩

variable
  (serves : devices.backend.Serves (devices.filePlaces .replicate path) Holds)
  {on : Option FileHandle}
  (own : on = none ∨ on = .some ⟨opened⟩)

include serves own

omit some in
/-- A cut reaches every copy, by path or handle. -/
theorem truncate_copies_answers
    (size : Nat) :
    (devices.truncate path on size).Answers fleet ()
      (Fleet.HasCopies (Holds opened)
        (List.replicate devices.count (bytes.resize size))) := by
  have plain : fleet.coder.mode ≠ .erasure := by
    rw [has.coder]
    decide
  rw [← has.coder] at serves
  refine (truncate_files_answers plain serves own size List.length_replicate
    has.files).weaken fun reached kept => ?_
  rw [List.map_replicate] at kept
  exact ⟨kept.1.trans has.coder, kept.2⟩

/-- Each copy has the size of the file. -/
theorem attributes_copies_answers :
    ∃ found, found.size = bytes.length ∧
      (devices.attributes path on).Answers fleet found (· = fleet) := by
  rw [← has.coder] at serves
  rcases attributes_held_answers serves own List.length_replicate some
      has.files with
    ⟨found, content, member, size, answers⟩
  refine ⟨found, ?_, answers⟩
  rw [size, has.coder]
  exact Replica.length_of_mem_replicate member

end Devices

/-! ## The device stage over copies -/

/-- The byte string that requests leave. -/
def FileRequest.leaveBytes
    (requests : List FileRequest)
    (bytes : Bytes) :
    Bytes :=
  requests.foldl
    (fun held request => (request.onBytes Memory.fileShape held).2) bytes

namespace Layer

variable
  {layer : Layer σ}
  {path : Path}
  {handle : FileHandle}
  {bytes : Bytes}

namespace ByteFile

variable
  {Holds : Bytes → σ → Prop}
  {state : σ}
  (file : layer.ByteFile path handle Holds)

include file

/-- A request succeeds and leaves what it leaves of the byte string. -/
theorem perform_answers
    {request : FileRequest}
    (own : Own handle request.handle?)
    (held : Holds bytes state) :
    ∃ answer, (layer.perform path request).Answers state answer
      (Holds (request.onBytes Memory.fileShape bytes).2) := by
  cases request with
  | read other offset length =>
      obtain rfl := own.eq
      exact ⟨_, (file.read offset length bytes state held).bind
        fun _ kept => .pure kept⟩
  | write other offset data =>
      obtain rfl := own.eq
      exact ⟨_, (file.write offset data bytes state held).bind
        fun _ kept => .pure kept⟩
  | truncate on size =>
      exact ⟨_, (file.truncate on size bytes state own held).bind
        fun _ kept => .pure kept⟩
  | fileSize on =>
      exact ⟨_, (file.fileSize on bytes state own held).bind
        fun _ kept => .pure kept⟩
  | attributes on =>
      rcases file.attributes on bytes state own held with ⟨found, answers⟩
      exact ⟨_, answers.bind fun _ kept => .pure kept⟩

/-- Requests leave what they leave of the byte string. -/
theorem leave_leaveBytes
    {requests : List FileRequest}
    (own : ∀ request ∈ requests, Own handle request.handle?)
    (held : Holds bytes state) :
    Holds (FileRequest.leaveBytes requests bytes)
      (layer.leave path requests state) := by
  induction requests generalizing bytes state with
  | nil => exact held
  | cons request rest ih =>
      rcases file.perform_answers (own request List.mem_cons_self) held with
        ⟨answer, answers⟩
      exact ih (fun other member => own other (List.mem_cons_of_mem _ member))
        answers.left

end ByteFile

variable
  {devices : Devices κ}
  {Holds : List Descriptor → List Bytes → κ → Prop}
  {opened : List Descriptor}
  (recorder : Nat)

/-- Through the device stage equal copies are a byte string. -/
theorem ofDevices_copies_byteFile
    (some : 0 < devices.count)
    (serves :
      devices.backend.Serves (devices.filePlaces .replicate path) Holds) :
    (Layer.ofDevices devices (Session.meter recorder)).ByteFile path ⟨opened⟩
      (fun bytes session => session.storage.HasCopies (Holds opened)
        (List.replicate devices.count bytes)) where
  read offset length bytes session has := by
    rcases
        Session.timed_answers recorder "read"
          (Session.onStorage (devices.read path ⟨opened⟩ offset length))
          session with
      ⟨started, storage, timed⟩
    rw [← storage] at has
    have copied : List.replicate devices.count bytes ≠ [] := by
      rw [Ne, List.replicate_eq_nil_iff]
      omega
    rcases Devices.read_copies serves path copied offset length has with
      ⟨reached, ran, kept⟩
    rw [List.map_replicate, Replica.compared_replicate some] at ran
    exact timed _ _ (Session.onStorage_answers ⟨reached, ran, kept⟩)
  write offset data bytes session has := by
    rcases
        Session.timed_answers recorder "write"
          (devices.writeDrawn path ⟨opened⟩ offset data) session with
      ⟨started, storage, timed⟩
    rw [← storage] at has
    refine timed _ _ ?_
    by_cases none : data = []
    · subst none
      exact .pure has
    · exact Devices.writeDrawn_answers none fun pads _ _ =>
        Devices.write_copies_answers some has serves offset data pads
  truncate on size bytes session own has :=
    Session.onStorage_answers
      (Devices.truncate_copies_answers has serves own size)
  fileSize on bytes session own has := by
    rcases Devices.attributes_copies_answers some has serves own with
      ⟨found, size, answers⟩
    refine (Session.onStorage_answers answers).bind fun reached kept => ?_
    rw [size]
    exact .pure (kept ▸ has)
  attributes on bytes session own has := by
    rcases Devices.attributes_copies_answers some has serves own with
      ⟨found, -, answers⟩
    exact ⟨found, (Session.onStorage_answers answers).weaken
      fun reached kept => kept ▸ has⟩

/-- A read through the device stage is a read of the devices. -/
theorem execute_read_ofDevices
    (handle : FileHandle)
    (offset length : Nat)
    (session : Session (Fleet κ)) :
    ∃ answer final,
      ((Layer.ofDevices devices (Session.meter recorder)).read path handle
          offset length).execute session = (answer, final) ∧
        (devices.read path handle offset length).execute session.storage =
          (answer, final.storage) := by
  refine ⟨_, _, rfl, ?_⟩
  rcases Session.execute_timed recorder "read"
      (Session.onStorage (devices.read path handle offset length)) rfl with
    ⟨started, finished, storage, ran, left⟩
  have read := Session.execute_onStorage ran
  rw [storage, left] at read
  exact read

end Layer

end Strata
