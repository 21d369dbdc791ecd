import Strata.Device.Fleet
import Strata.Proofs.Execution
import Strata.Proofs.StoredBlocks

/-!
# Requests to all device files

Where each device does what it is asked to, a fan-out is answered by the
outcomes of the devices in their order.  The files of a path on the devices
are then a row of byte strings that is read, written and cut in one step; the
files may be anything that a backend offers, as long as it serves every
request on them.
-/

namespace Strata

variable {κ α : Type}

/-! ## Actions on a fleet -/

namespace Fleet

variable
  {fleet : Fleet κ}
  {answer : α}

theorem onHost_answers
    {action : Action κ α}
    {after : κ → Prop}
    (answers : action.Answers fleet.host answer after) :
    (onHost action).Answers fleet answer
      (fun reached => reached.coder = fleet.coder ∧ after reached.host) := by
  rcases answers with ⟨host, ran, held⟩
  refine ⟨{ fleet with host }, ?_, rfl, held⟩
  simp [onHost, ran]

theorem onCoder_answers
    {action : Action Coder α}
    {after : Coder → Prop}
    (answers : action.Answers fleet.coder answer after) :
    (onCoder action).Answers fleet answer
      (fun reached => after reached.coder ∧ reached.host = fleet.host) := by
  rcases answers with ⟨coder, ran, held⟩
  refine ⟨{ fleet with coder }, ?_, held, rfl⟩
  simp [onCoder, ran]

theorem askCoder_answers
    {question : Coder → Except Error α}
    (answered : question fleet.coder = .ok answer) :
    (askCoder question).Answers fleet answer (· = fleet) :=
  ⟨fleet, by simp [askCoder, answered], rfl⟩

theorem askHost_answers
    {question : κ → Except HostError α}
    (answered : question fleet.host = .ok answer) :
    (askHost question).Answers fleet answer (· = fleet) :=
  ⟨fleet, by simp [askHost, answered, Except.mapError], rfl⟩

end Fleet

/-! ## Fan-outs that succeed -/

namespace Fanout

variable
  {backend : Backend κ}
  {requests : List DeviceRequest}
  {state : κ}

/-- The report of a device that did what it was asked to. -/
def reported
    (outcome : Outcome) :
    Report :=
  some (.ok outcome)

theorem collect_reported
    (device : Nat)
    (outcomes : List Outcome) :
    collect device (outcomes.map reported) = .ok outcomes := by
  induction outcomes generalizing device with
  | nil => rfl
  | cons outcome rest ih =>
      simp [reported, collect, ih, Except.map]

/-- The devices agree if all of them moved as much as expected. -/
theorem agree_of_transferred
    {expected : Nat}
    (device : Nat)
    {outcomes : List Outcome}
    (same : ∀ outcome ∈ outcomes,
      outcome.transferred?.getD 0 = expected) :
    agree expected device outcomes = .ok () := by
  induction outcomes generalizing device with
  | nil => rfl
  | cons outcome rest ih =>
      rw [agree, if_pos (same outcome List.mem_cons_self)]
      exact ih (device + 1) fun other member =>
        same other (List.mem_cons_of_mem _ member)

theorem agree_leading
    (count : Nat)
    {outcomes : List Outcome}
    (same : ∀ outcome ∈ outcomes, outcome.transferred? = some count) :
    agree (leading outcomes) 1 outcomes.tail = .ok () := by
  cases outcomes with
  | nil => rfl
  | cons first rest =>
      refine agree_of_transferred 1 fun outcome member => ?_
      rw [same outcome (List.mem_cons_of_mem _ member)]
      simp [leading, same first List.mem_cons_self]

/-- Devices that agree come to their outcomes. -/
theorem join_reported
    {outcomes : List Outcome}
    {transfer : Bool}
    (agrees : transfer = true →
      agree (leading outcomes) 1 outcomes.tail = .ok ()) :
    join (outcomes.map reported) transfer = .ok outcomes := by
  rw [join, collect_reported]
  cases transfer with
  | false => rfl
  | true => simp [agrees rfl, bind, Except.bind, pure, Except.pure]

/-- What the devices from one on report, when each of them serves its request
in any state that the devices before it can leave. -/
theorem gather_succeeds
    {Between : List Outcome → κ → Prop}
    (serves : ∀ done request state,
      requests[done.length]? = some request → Between done state →
        ∃ outcome reached,
          backend.perform request state = (reported outcome, reached) ∧
            Between (done ++ [outcome]) reached)
    {count : Nat}
    (done : List Outcome)
    (remain : done.length + count = requests.length)
    (between : Between done state) :
    ∃ outcomes reached,
      gather backend requests (List.range' done.length count)
          (done.map reported ++ List.replicate count none) state =
        (outcomes.map reported, reached) ∧
        outcomes.length = requests.length ∧ Between outcomes reached := by
  induction count generalizing done state with
  | zero =>
      refine ⟨done, state, ?_, remain, between⟩
      simp [gather]
  | succ count ih =>
      have there : done.length < requests.length := by omega
      have asked : requests[done.length]? = some requests[done.length] :=
        List.getElem?_eq_getElem there
      rcases serves done _ state asked between with
        ⟨outcome, reached, performed, served⟩
      have slots :
          (done.map reported ++ List.replicate (count + 1) none).set
              done.length (reported outcome) =
            (done ++ [outcome]).map reported ++
              List.replicate count none := by
        simp [List.replicate_succ]
      rw [List.range'_succ, gather, asked]
      simp only [performed, slots]
      have next := ih (done ++ [outcome]) (by simp; omega) served
      simpa using next

theorem dispatch_succeeds
    {Between : List Outcome → κ → Prop}
    (start : Between [] state)
    (serves : ∀ done request state,
      requests[done.length]? = some request → Between done state →
        ∃ outcome reached,
          backend.perform request state = (reported outcome, reached) ∧
            Between (done ++ [outcome]) reached)
    (agrees : ∀ outcomes reached,
      outcomes.length = requests.length → Between outcomes reached →
        requests.any (·.isTransfer) = true →
          agree (leading outcomes) 1 outcomes.tail = .ok ()) :
    ∃ outcomes, outcomes.length = requests.length ∧
      (dispatch backend requests).Answers state outcomes
        (Between outcomes) := by
  rcases gather_succeeds serves [] (Nat.zero_add _) start with
    ⟨outcomes, reached, gathered, count, between⟩
  refine ⟨outcomes, count, reached, ?_, between⟩
  rw [List.map_nil, List.nil_append, List.length_nil] at gathered
  simp only [dispatch, Action.execute_ofRun, List.range_eq_range', gathered,
    join_reported (agrees outcomes reached count between)]

/-- What a fan-out with known outcomes comes to, whether the devices agree or
not. -/
theorem dispatch_joins_outcomes
    {outcomes : List Outcome}
    (Between : Nat → κ → Prop)
    (count : outcomes.length = requests.length)
    (start : Between 0 state)
    (serves : ∀ (device : Nat) request outcome state,
      requests[device]? = some request → outcomes[device]? = some outcome →
        Between device state →
          ∃ reached,
            backend.perform request state = (reported outcome, reached) ∧
              Between (device + 1) reached) :
    ∃ reached,
      (dispatch backend requests).execute state =
          (join (outcomes.map reported) (requests.any (·.isTransfer)),
            reached) ∧
        Between requests.length reached := by
  have next : ∀ (done : List Outcome) request reached,
      requests[done.length]? = some request →
        done = outcomes.take done.length ∧ Between done.length reached →
          ∃ outcome after,
            backend.perform request reached = (reported outcome, after) ∧
              done ++ [outcome] =
                outcomes.take (done ++ [outcome]).length ∧
              Between (done ++ [outcome]).length after := by
    rintro done request reached asked ⟨so, between⟩
    have there : done.length < outcomes.length := by
      rw [count]
      exact (List.getElem?_eq_some_iff.mp asked).1
    rcases
        serves done.length request outcomes[done.length] reached asked
          (List.getElem?_eq_getElem there) between with
      ⟨after, performed, served⟩
    refine ⟨_, after, performed, ?_, by simpa using served⟩
    rw [List.length_append, List.length_singleton,
      List.take_succ_eq_append_getElem there, ← so]
  rcases gather_succeeds next [] (Nat.zero_add _) ⟨rfl, start⟩ with
    ⟨found, reached, gathered, long, same, between⟩
  rw [long] at between
  rw [long, ← count, List.take_length] at same
  rw [List.map_nil, List.nil_append, List.length_nil, same] at gathered
  refine ⟨reached, ?_, between⟩
  simp only [dispatch, Action.execute_ofRun, List.range_eq_range', gathered]

/-- A fan-out with known outcomes, where the devices agree. -/
theorem dispatch_answers
    {outcomes : List Outcome}
    (Between : Nat → κ → Prop)
    (count : outcomes.length = requests.length)
    (start : Between 0 state)
    (serves : ∀ (device : Nat) request outcome state,
      requests[device]? = some request → outcomes[device]? = some outcome →
        Between device state →
          ∃ reached,
            backend.perform request state = (reported outcome, reached) ∧
              Between (device + 1) reached)
    (agrees : requests.any (·.isTransfer) = true →
      agree (leading outcomes) 1 outcomes.tail = .ok ()) :
    (dispatch backend requests).Answers state outcomes
      (Between requests.length) := by
  rcases dispatch_joins_outcomes Between count start serves with
    ⟨reached, ran, between⟩
  exact ⟨reached, by rw [ran, join_reported agrees], between⟩

/-- A fan-out of which each request changes the file of its own device. -/
theorem dispatch_changes
    {outcomes : List Outcome}
    {contents changed : List Bytes}
    {Holds : List Bytes → κ → Prop}
    (count : outcomes.length = requests.length)
    (before : contents.length = requests.length)
    (after : changed.length = requests.length)
    (held : Holds contents state)
    (serves : ∀ (device : Nat) request outcome old new present state,
      requests[device]? = some request → outcomes[device]? = some outcome →
        contents[device]? = some old → changed[device]? = some new →
          present[device]? = some old → Holds present state →
            ∃ reached,
              backend.perform request state = (reported outcome, reached) ∧
                Holds (present.set device new) reached)
    (agrees : requests.any (·.isTransfer) = true →
      agree (leading outcomes) 1 outcomes.tail = .ok ()) :
    (dispatch backend requests).Answers state outcomes (Holds changed) := by
  have served :
      (dispatch backend requests).Answers state outcomes
        (Holds (changed.take requests.length ++
          contents.drop requests.length)) := by
    refine dispatch_answers
      (fun device => Holds (changed.take device ++ contents.drop device))
      count ?_ ?_ agrees
    · exact held
    · intro device request outcome reached asked answered between
      have there : device < requests.length :=
        (List.getElem?_eq_some_iff.mp asked).1
      have old : device < contents.length := by omega
      have new : device < changed.length := by omega
      have taken : (changed.take device).length = device :=
        List.length_take_of_le (by omega)
      have current : (changed.take device ++ contents.drop device)[device]? =
          some contents[device] := by
        rw [List.getElem?_append_right (by omega), taken, Nat.sub_self,
          List.getElem?_drop, Nat.add_zero, List.getElem?_eq_getElem old]
      rcases
          serves device request outcome contents[device] changed[device] _
            reached asked answered (List.getElem?_eq_getElem old)
            (List.getElem?_eq_getElem new) current between with
        ⟨next, performed, holds⟩
      have moved :
          (changed.take device ++ contents.drop device).set device
              changed[device] =
            changed.take (device + 1) ++ contents.drop (device + 1) := by
        rw [List.set_append_right _ _ (by omega), taken, Nat.sub_self,
          List.drop_eq_getElem_cons old, List.set_cons_zero,
          List.take_succ_eq_append_getElem new, List.append_assoc,
          List.singleton_append]
      exact ⟨next, performed, moved ▸ holds⟩
  rw [← after, List.take_length, List.drop_of_length_le (by omega),
    List.append_nil] at served
  exact served

end Fanout

/-! ## Files that are served -/

/--
Every request on the files at some places, one on each device, succeeds.
`Holds` ties what the files contain, and the descriptors that they are open
under, to the states of the backend; files are made in the order of the
devices, and those that were made are the first ones.
-/
structure Backend.Serves
    (backend : Backend κ)
    (places : List String)
    (Holds : List Descriptor → List Bytes → κ → Prop) :
    Prop where
  opened : ∀ opened contents state, Holds opened contents state →
    opened.length = contents.length
  create : ∀ place mode opened contents state,
    Holds opened contents state →
    places[contents.length]? = some place →
      ∃ file reached,
        backend.perform (.create place mode) state =
            (some (.ok (.opened file)), reached) ∧
          Holds (opened ++ [file]) (contents ++ [[]]) reached
  read : ∀ (device : Nat) file offset length content opened contents state,
    Holds opened contents state →
    opened[device]? = some file →
    contents[device]? = some content →
      ∃ reached,
        backend.perform (.read file offset length) state =
            (some (.ok (.data (content.slice offset length))), reached) ∧
          Holds opened contents reached
  write : ∀ (device : Nat) file offset data content opened contents state,
    Holds opened contents state →
    opened[device]? = some file →
    contents[device]? = some content →
      ∃ reached,
        backend.perform (.write file offset data) state =
            (some (.ok (.written data.length)), reached) ∧
          Holds opened (contents.set device (content.splice offset data))
            reached
  truncateOpened : ∀ (device : Nat) file size content opened contents state,
    Holds opened contents state →
    opened[device]? = some file →
    contents[device]? = some content →
      ∃ reached,
        backend.perform (.truncateOpened file size) state =
            (some (.ok .done), reached) ∧
          Holds opened (contents.set device (content.resize size)) reached
  truncate : ∀ (device : Nat) place size content opened contents state,
    Holds opened contents state →
    places[device]? = some place →
    contents[device]? = some content →
      ∃ reached,
        backend.perform (.truncate place size) state =
            (some (.ok .done), reached) ∧
          Holds opened (contents.set device (content.resize size)) reached
  openedAttributes : ∀ (device : Nat) file content opened contents state,
    Holds opened contents state →
    opened[device]? = some file →
    contents[device]? = some content →
      ∃ found,
        backend.openedAttributes file state = .ok found ∧
          found.isFile = true ∧ found.size = content.length
  attributes : ∀ (device : Nat) place content opened contents state,
    Holds opened contents state →
    places[device]? = some place →
    contents[device]? = some content →
      ∃ found,
        backend.attributes place state = .ok found ∧
          found.isFile = true ∧ found.size = content.length

namespace Devices

variable
  {devices : Devices κ}
  {fleet : Fleet κ}
  {places : List String}
  {Holds : List Descriptor → List Bytes → κ → Prop}
  {opened : List Descriptor}
  {contents fragments : List Bytes}

theorem descriptors_opened
    (device : Nat)
    (opened : List Descriptor) :
    descriptors device (opened.map .opened) = .ok opened := by
  induction opened generalizing device with
  | nil => rfl
  | cons file rest ih =>
      simp [descriptors, ih, Except.map]

/-- A file is made on each device, and each of them is empty. -/
theorem openAll_create_answers
    (serves : devices.backend.Serves places Holds)
    (mode : Nat)
    (held : Holds [] [] fleet.host) :
    ∃ opened,
      (devices.openAll (places.map (.create · mode))).Answers fleet ⟨opened⟩
        (fun reached => reached.coder = fleet.coder ∧
          Holds opened (List.replicate places.length []) reached.host) := by
  have start : ∃ opened : List Descriptor,
      ([] : List Outcome) = opened.map .opened ∧
        Holds opened (List.replicate ([] : List Outcome).length [])
          fleet.host :=
    ⟨[], rfl, held⟩
  have next : ∀ (done : List Outcome) request state,
      (places.map (.create · mode))[done.length]? = some request →
        (∃ opened : List Descriptor, done = opened.map .opened ∧
          Holds opened (List.replicate done.length []) state) →
          ∃ outcome reached,
            devices.backend.perform request state =
                (Fanout.reported outcome, reached) ∧
              ∃ opened : List Descriptor,
                done ++ [outcome] = opened.map .opened ∧
                  Holds opened
                    (List.replicate (done ++ [outcome]).length []) reached := by
    rintro done request state asked ⟨opened, so, holds⟩
    rw [List.getElem?_map, Option.map_eq_some_iff] at asked
    rcases asked with ⟨place, there, rfl⟩
    rcases
        serves.create place mode opened _ state holds (by simpa using there) with
      ⟨file, reached, performed, made⟩
    refine ⟨.opened file, reached, performed, opened ++ [file], ?_, ?_⟩
    · rw [so, List.map_append, List.map_singleton]
    · rw [List.length_append, List.length_singleton, List.replicate_succ']
      exact made
  rcases
      Fanout.dispatch_succeeds start next fun _ _ _ _ transfer => by
        simp [DeviceRequest.isTransfer] at transfer with
    ⟨outcomes, count, answered⟩
  rcases Fleet.onHost_answers answered with
    ⟨reached, ran, kept, opened, so, holds⟩
  have opens : descriptors 0 outcomes = .ok opened := by
    rw [so, descriptors_opened]
  refine ⟨opened, reached, ?_, kept, ?_⟩
  · rw [openAll, Action.execute_bind, fanOut, ran]
    simp only [Action.execute_bind, Action.execute_ofExcept, opens,
      Action.execute_pure]
  · rwa [count, List.length_map] at holds

/-- The same range is read of every file. -/
theorem fanOut_read_answers
    (serves : devices.backend.Serves places Holds)
    {first length width : Nat}
    (same : ∀ content ∈ contents, (content.slice first length).length = width)
    (held : Holds opened contents fleet.host) :
    (devices.fanOut (opened.map (.read · first length))).Answers fleet
      (contents.map fun content => .data (content.slice first length))
      (fun reached => reached.coder = fleet.coder ∧
        Holds opened contents reached.host) := by
  have count := serves.opened _ _ _ held
  refine Fleet.onHost_answers (Fanout.dispatch_changes (by simp [count])
    (by simp [count]) (by simp [count]) held ?_ ?_)
  · intro device request outcome old new present state asked answered before
      after current holds
    rw [List.getElem?_map, Option.map_eq_some_iff] at asked answered
    rcases asked with ⟨file, there, rfl⟩
    rcases answered with ⟨content, found, rfl⟩
    obtain rfl := Option.some.inj (found.symm.trans before)
    obtain rfl := Option.some.inj (found.symm.trans after)
    rcases
        serves.read device file first length content _ _ _ holds there current with
      ⟨reached, performed, kept⟩
    refine ⟨reached, performed, ?_⟩
    rcases List.getElem?_eq_some_iff.mp current with ⟨inside, unchanged⟩
    rwa [← unchanged, List.set_getElem_self]
  · intro _
    refine Fanout.agree_leading width fun outcome member => ?_
    rcases List.mem_map.mp member with ⟨content, among, rfl⟩
    exact congrArg some (same content among)

/-- One fragment is written over each file. -/
theorem fanOut_write_answers
    (serves : devices.backend.Serves places Holds)
    {start width : Nat}
    (count : fragments.length = contents.length)
    (same : ∀ fragment ∈ fragments, fragment.length = width)
    (held : Holds opened contents fleet.host) :
    (devices.fanOut ((opened.zip fragments).map fun (file, fragment) =>
        .write file start fragment)).Answers fleet
      (fragments.map fun fragment => .written fragment.length)
      (fun reached => reached.coder = fleet.coder ∧
        Holds opened (spliceAll contents start fragments) reached.host) := by
  have files := serves.opened _ _ _ held
  refine Fleet.onHost_answers (Fanout.dispatch_changes
    (by simp [count, files]) (by simp [count, files])
    (by simp [length_spliceAll count, count, files]) held ?_ ?_)
  · intro device request outcome old new present state asked answered before
      after current holds
    rw [List.getElem?_map, Option.map_eq_some_iff] at asked answered
    rcases asked with ⟨⟨file, given⟩, paired, rfl⟩
    rcases answered with ⟨fragment, found, rfl⟩
    rcases List.getElem?_zip_eq_some.mp paired with ⟨there, same⟩
    obtain rfl := Option.some.inj (same.symm.trans found)
    rcases
        serves.write device file start given old _ _ _ holds there current with
      ⟨reached, performed, written⟩
    refine ⟨reached, performed, ?_⟩
    have spliced : new = old.splice start given := by
      simp only [spliceAll, List.getElem?_zipWith, before, found] at after
      exact (Option.some.inj after).symm
    rwa [spliced]
  · intro _
    refine Fanout.agree_leading width fun outcome member => ?_
    rcases List.mem_map.mp member with ⟨fragment, among, rfl⟩
    exact congrArg some (same fragment among)

/-- Requests that each cut the file of their own device. -/
theorem fanOutDone_cut_answers
    {requests : List DeviceRequest}
    {size : Nat}
    (count : requests.length = contents.length)
    (plain : requests.any (·.isTransfer) = false)
    (cuts : ∀ (device : Nat) request content present state,
      requests[device]? = some request → present[device]? = some content →
        Holds opened present state →
          ∃ reached,
            devices.backend.perform request state =
                (some (.ok .done), reached) ∧
              Holds opened (present.set device (content.resize size)) reached)
    (held : Holds opened contents fleet.host) :
    (devices.fanOutDone requests).Answers fleet ()
      (fun reached => reached.coder = fleet.coder ∧
        Holds opened (contents.map (·.resize size)) reached.host) := by
  have cut : (devices.fanOut requests).Answers fleet
      (contents.map fun _ => .done)
      (fun reached => reached.coder = fleet.coder ∧
        Holds opened (contents.map (·.resize size)) reached.host) := by
    refine Fleet.onHost_answers (Fanout.dispatch_changes (by simp [count])
      count.symm (by simp [count]) held ?_ ?_)
    · intro device request outcome old new present state asked answered before
        after current holds
      rw [List.getElem?_map, Option.map_eq_some_iff] at answered after
      rcases answered with ⟨_, _, rfl⟩
      rcases after with ⟨content, found, rfl⟩
      obtain rfl := Option.some.inj (found.symm.trans before)
      exact cuts device request content present state asked current holds
    · intro transfer
      rw [plain] at transfer
      cases transfer
  exact cut.bind fun reached held => .pure held

theorem onHandle_truncate_answers
    (serves : devices.backend.Serves places Holds)
    (size : Nat)
    (held : Holds opened contents fleet.host) :
    (devices.onHandle ⟨opened⟩ (.truncateOpened · size)).Answers fleet ()
      (fun reached => reached.coder = fleet.coder ∧
        Holds opened (contents.map (·.resize size)) reached.host) := by
  have count := serves.opened _ _ _ held
  refine fanOutDone_cut_answers (by simp [count])
    (by simp [DeviceRequest.isTransfer]) ?_ held
  intro device request content present state asked current holds
  rw [List.getElem?_map, Option.map_eq_some_iff] at asked
  rcases asked with ⟨file, there, rfl⟩
  exact serves.truncateOpened device file size content _ _ _ holds there
    current

theorem fanOutDone_truncate_answers
    (serves : devices.backend.Serves places Holds)
    (size : Nat)
    (count : places.length = contents.length)
    (held : Holds opened contents fleet.host) :
    (devices.fanOutDone (places.map (.truncate · size))).Answers fleet ()
      (fun reached => reached.coder = fleet.coder ∧
        Holds opened (contents.map (·.resize size)) reached.host) := by
  refine fanOutDone_cut_answers (by simp [count])
    (by simp [DeviceRequest.isTransfer]) ?_ held
  intro device request content present state asked current holds
  rw [List.getElem?_map, Option.map_eq_some_iff] at asked
  rcases asked with ⟨place, there, rfl⟩
  exact serves.truncate device place size content _ _ _ holds there current

end Devices

/-! ## Device files in memory -/

/-- Device files in memory with their places, in the order in which they were
made.  A file is opened under its number. -/
abbrev DeviceShelf :=
  List (String × Bytes)

namespace DeviceShelf

/-- The number of the file at a place. -/
def number?
    (shelf : DeviceShelf)
    (place : String) :
    Option Nat :=
  shelf.findIdx? fun entry => entry.1 == place

/-- Asks and changes an open file. -/
def onFile
    (shelf : DeviceShelf)
    (file : Nat)
    (answer : Bytes → Outcome)
    (change : Bytes → Bytes) :
    Report × DeviceShelf :=
  match shelf[file]? with
  | none => (some (.error .badDescriptor), shelf)
  | some (place, content) =>
    (some (.ok (answer content)), shelf.set file (place, change content))

/-- Asks and changes the file at a place. -/
def onPlace
    (shelf : DeviceShelf)
    (place : String)
    (answer : Nat → Bytes → Outcome)
    (change : Bytes → Bytes) :
    Report × DeviceShelf :=
  match shelf.number? place with
  | none => (some (.error .notFound), shelf)
  | some file => shelf.onFile file (answer file) change

/-- What is known about a file with some contents. -/
def attributesOf
    (content : Bytes) :
    Attributes :=
  { kind := .file, size := content.length, mode := 33188, links := 1,
    owner := 0, group := 0, modified := 0 }

/-- What is known about a file. -/
def attributes
    (shelf : DeviceShelf)
    (file : Nat) :
    Except HostError Attributes :=
  match shelf[file]? with
  | none => .error .badDescriptor
  | some (_, content) => .ok (attributesOf content)

/-- The backend over files in memory, which has no directories. -/
def backend :
    Backend DeviceShelf where
  perform request shelf :=
    match request with
    | .create place _ =>
      match shelf.number? place with
      | none => (some (.ok (.opened shelf.length)), shelf ++ [(place, [])])
      | some file => shelf.onFile file (fun _ => .opened file) fun _ => []
    | .openFile place _ => shelf.onPlace place (fun file _ => .opened file) id
    | .release file => shelf.onFile file (fun _ => .done) id
    | .read file offset length =>
      shelf.onFile file (fun content => .data (content.slice offset length)) id
    | .write file offset data =>
      shelf.onFile file (fun _ => .written data.length)
        (·.splice offset data)
    | .flush file => shelf.onFile file (fun _ => .done) id
    | .sync file _ => shelf.onFile file (fun _ => .done) id
    | .truncate place size =>
      shelf.onPlace place (fun _ _ => .done) (·.resize size)
    | .truncateOpened file size =>
      shelf.onFile file (fun _ => .done) (·.resize size)
    | _ => (some (.error (.refused "only files are kept")), shelf)
  openRoot path shelf := (.ok path, shelf)
  attributes place shelf :=
    match shelf.number? place with
    | none => .error .notFound
    | some file => shelf.attributes file
  openedAttributes file shelf := shelf.attributes file
  readLink _ _ := .error (.refused "only files are kept")
  capacity _ _ := .error (.refused "only files are kept")

/-- The files at the first places were made, and nothing else was. -/
structure Keeps
    (places : List String)
    (opened : List Descriptor)
    (contents : List Bytes)
    (shelf : DeviceShelf) :
    Prop where
  files : shelf = places.zip contents
  known : contents.length ≤ places.length
  numbers : opened = List.range contents.length

section Keeps

variable
  {places : List String}
  {opened : List Descriptor}
  {contents : List Bytes}
  {shelf : DeviceShelf}
  {device : Nat}

theorem Keeps.lt
    (keeps : shelf.Keeps places opened contents)
    {file : Descriptor}
    (there : opened[device]? = some file) :
    file = device := by
  rw [keeps.numbers, List.getElem?_range] at there
  · exact (Option.some.inj there).symm
  · have := (List.getElem?_eq_some_iff.mp there).1
    simpa [keeps.numbers] using this

theorem Keeps.entry
    (keeps : shelf.Keeps places opened contents)
    {content : Bytes}
    (current : contents[device]? = some content) :
    ∃ place, places[device]? = some place ∧
      shelf[device]? = some (place, content) := by
  have inside := (List.getElem?_eq_some_iff.mp current).1
  have there : device < places.length :=
    Nat.lt_of_lt_of_le inside keeps.known
  refine ⟨places[device], List.getElem?_eq_getElem there, ?_⟩
  rw [keeps.files]
  exact List.getElem?_zip_eq_some.mpr
    ⟨List.getElem?_eq_getElem there, current⟩

theorem Keeps.set
    (keeps : shelf.Keeps places opened contents)
    {place : String}
    (there : places[device]? = some place)
    (changed : Bytes) :
    Keeps places opened (contents.set device changed)
      (List.set shelf device (place, changed)) where
  files := by
    rcases List.getElem?_eq_some_iff.mp there with ⟨inside, same⟩
    rw [keeps.files]
    apply List.ext_getElem (by simp)
    intro other _ _
    simp only [List.getElem_set, List.getElem_zip]
    by_cases here : device = other
    · subst here
      simp [same]
    · simp [here]
  known := by
    rw [List.length_set]
    exact keeps.known
  numbers := by
    rw [List.length_set]
    exact keeps.numbers

theorem zip_concat
    {place : String}
    {content : Bytes}
    (there : places[contents.length]? = some place) :
    places.zip (contents ++ [content]) =
      places.zip contents ++ [(place, content)] := by
  induction contents generalizing places with
  | nil =>
      cases places with
      | nil => cases there
      | cons first rest =>
          cases there
          simp
  | cons head others ih =>
      cases places with
      | nil => cases there
      | cons first rest => simp [ih (by simpa using there)]

/-- One more file is made. -/
theorem Keeps.add
    (keeps : shelf.Keeps places opened contents)
    {place : String}
    (there : places[contents.length]? = some place) :
    Keeps places (opened ++ [shelf.length]) (contents ++ [[]])
      (shelf ++ [(place, [])]) := by
  rcases List.getElem?_eq_some_iff.mp there with ⟨inside, same⟩
  have count : shelf.length = contents.length := by
    rw [keeps.files, List.length_zip]
    omega
  constructor
  case files => rw [zip_concat there, keeps.files]
  case known =>
    rw [List.length_append, List.length_singleton]
    exact inside
  case numbers =>
    rw [keeps.numbers, count, List.length_append, List.length_singleton,
      List.range_succ]

theorem Keeps.number?
    (keeps : shelf.Keeps places opened contents)
    (distinct : places.Nodup)
    {place : String}
    (there : places[device]? = some place)
    (made : device < contents.length) :
    shelf.number? place = some device := by
  rcases List.getElem?_eq_some_iff.mp there with ⟨inside, same⟩
  unfold DeviceShelf.number?
  rw [keeps.files, List.findIdx?_eq_some_iff_getElem]
  refine ⟨by rw [List.length_zip]; omega, by simp [same], ?_⟩
  intro earlier before
  simp only [List.getElem_zip, beq_iff_eq]
  intro equal
  have := distinct.getElem_inj_iff.mp (equal.trans same.symm)
  omega

theorem Keeps.number?_next
    (keeps : shelf.Keeps places opened contents)
    (distinct : places.Nodup)
    {place : String}
    (there : places[contents.length]? = some place) :
    shelf.number? place = none := by
  rcases List.getElem?_eq_some_iff.mp there with ⟨inside, same⟩
  unfold DeviceShelf.number?
  rw [keeps.files, List.findIdx?_eq_none_iff]
  rintro ⟨other, content⟩ member
  rcases List.getElem_of_mem member with ⟨device, before, equal⟩
  have earlier : device < contents.length := by
    rw [List.length_zip] at before
    omega
  simp only [beq_eq_false_iff_ne, ne_eq]
  intro named
  rw [List.getElem_zip] at equal
  have same' := (Prod.mk.inj equal).1.trans (named.trans same.symm)
  have := distinct.getElem_inj_iff.mp same'
  omega

/-- A request on a file that is kept. -/
theorem Keeps.onFile
    (keeps : shelf.Keeps places opened contents)
    {content : Bytes}
    (current : contents[device]? = some content)
    (answer : Bytes → Outcome)
    (change : Bytes → Bytes) :
    ∃ reached,
      shelf.onFile device answer change =
          (some (.ok (answer content)), reached) ∧
        Keeps places opened (contents.set device (change content)) reached := by
  rcases keeps.entry current with ⟨place, there, entry⟩
  refine ⟨List.set shelf device (place, change content), ?_,
    keeps.set there _⟩
  simp only [DeviceShelf.onFile, entry]

end Keeps

/-- Files in memory serve every request. -/
theorem serves
    {places : List String}
    (distinct : places.Nodup) :
    backend.Serves places (Keeps places) := by
  constructor
  case opened =>
    intro opened contents shelf keeps
    rw [keeps.numbers, List.length_range]
  case create =>
    intro place mode opened contents shelf keeps there
    have absent := keeps.number?_next distinct there
    refine ⟨shelf.length, shelf ++ [(place, [])], ?_, keeps.add there⟩
    simp only [backend, absent]
  case read =>
    intro device file offset length content opened contents shelf keeps there
      current
    obtain rfl := keeps.lt there
    rcases
        keeps.onFile current
          (fun content => .data (content.slice offset length)) id with
      ⟨reached, performed, kept⟩
    refine ⟨reached, performed, ?_⟩
    rcases List.getElem?_eq_some_iff.mp current with ⟨inside, unchanged⟩
    rwa [id, ← unchanged, List.set_getElem_self] at kept
  case write =>
    intro device file offset data content opened contents shelf keeps there
      current
    obtain rfl := keeps.lt there
    exact keeps.onFile current (fun _ => .written data.length)
      (·.splice offset data)
  case truncateOpened =>
    intro device file size content opened contents shelf keeps there current
    obtain rfl := keeps.lt there
    exact keeps.onFile current (fun _ => .done) (·.resize size)
  case truncate =>
    intro device place size content opened contents shelf keeps there current
    have made := (List.getElem?_eq_some_iff.mp current).1
    have found := keeps.number? distinct there made
    rcases keeps.onFile current (fun _ => .done) (·.resize size) with
      ⟨reached, performed, kept⟩
    refine ⟨reached, ?_, kept⟩
    simp only [backend, onPlace, found]
    exact performed
  case openedAttributes =>
    intro device file content opened contents shelf keeps there current
    obtain rfl := keeps.lt there
    rcases keeps.entry current with ⟨place, _, entry⟩
    refine ⟨attributesOf content, ?_, rfl, rfl⟩
    simp only [backend, attributes, entry]
  case attributes =>
    intro device place content opened contents shelf keeps there current
    have made := (List.getElem?_eq_some_iff.mp current).1
    have found := keeps.number? distinct there made
    rcases keeps.entry current with ⟨same, _, entry⟩
    refine ⟨attributesOf content, ?_, rfl, rfl⟩
    simp only [backend, found, attributes, entry]

end DeviceShelf

end Strata
